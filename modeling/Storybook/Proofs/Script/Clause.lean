/-
# `Storybook.Proofs.Script.Clause` — how attributes and statements are read

One lemma for each rule of the grammar says which tokens it reads (`Takes`), up to positions.  What
may follow matters wherever something is optional:

| condition on what follows | for |
| :-- | :-- |
| `ExpressionEnds` | an expression |
| `AttributesEnd` | the attributes of an agent |
| `Onward` | a statement, and an agent without a block |

The tokens after an item of a block are always onward: they are the next item, or the end of the
block.  Nothing optional begins with the same word as an item, but for the attribute `animate`.
The statement of that name goes on with a number sign, where the attribute has a name
(`TellsAnimate`).
-/
import Storybook.Proofs.Script.Spelling

namespace Storybook.Script

/-! ## What follows -/

/-- The words that begin an item of a block or stand after the last one. -/
def onwardWords : List String :=
  ["page", "auto_advance", "text", "button", "image", "video", "if", "for", "wait", "timer",
    "init", "set", "add", "subtract", "go", "move", "tween", "animate", "stop", "play", "music",
    "end", "else"]

/-- Whether tokens are no statement that begins like the attribute `animate`, unless the name of
an agent tells them apart. -/
def TellsAnimate (ts : List Token) : Prop :=
  leading ts = "animate" → ∃ name us, ts = .word "animate" :: .target name :: us

/-- Whether tokens go on no attribute. -/
structure AttributesEnd (ts : List Token) : Prop where
  leading_notMem : leading ts ∉
    ["", "at", "size", "color", "font_size", "autoplay", "loop", "duration", "repeat"]
  tellsAnimate : TellsAnimate ts

/-- Whether tokens begin with the next item of a block, or with what stands after the last one. -/
structure Onward (ts : List Token) : Prop where
  leading_mem : leading ts ∈ onwardWords
  settled : Settled (spread ts)
  tellsAnimate : TellsAnimate ts

theorem AttributesEnd.of_ne {w : String} {h : isRun w = true} (ts : List Token)
    (hw : w ∉ ["", "at", "size", "color", "font_size", "autoplay", "loop", "duration", "repeat"])
    (ha : w ≠ "animate") : AttributesEnd (.word w h :: ts) where
  leading_notMem := by rwa [leading_word]
  tellsAnimate he := absurd ((leading_word w h ts).symm.trans he) ha

namespace Onward

variable {ts : List Token}

/-- No item of a block begins with one of some other words. -/
theorem notMem (h : Onward ts) {keys : List String} (hk : ∀ w ∈ onwardWords, w ∉ keys) :
    leading ts ∉ keys :=
  hk _ h.leading_mem

theorem attributesEnd (h : Onward ts) : AttributesEnd ts :=
  ⟨h.notMem (by decide), h.tellsAnimate⟩

theorem leading_ne (h : Onward ts) {w : String} (hw : w ∉ onwardWords) : leading ts ≠ w := by
  rintro rfl
  exact hw h.leading_mem

end Onward

/-- Whether tokens go on no expression. -/
structure ExpressionEnds (ts : List Token) : Prop where
  ne_nil : ts ≠ []
  halts : Halts (spread ts)

namespace ExpressionEnds

variable {ts : List Token}

theorem of_leading (h : leading ts ≠ "") (hs : Settled (spread ts)) : ExpressionEnds ts where
  ne_nil := by
    rintro rfl
    exact h rfl
  halts := by
    obtain ⟨rest, hfront, -, hname⟩ := front_eq_leading ts
    rw [← front_eq_spread hs, hfront]
    cases hl : (leading ts).toList with
    | nil => exact absurd (String.toList_eq_nil_iff.mp hl) h
    | cons c more => exact .of_isNameChar (hname c (hl ▸ List.mem_cons_self ..)) _

theorem word (w : String) (h : isRun w = true) (ts : List Token) :
    ExpressionEnds (.word w h :: ts) := by
  refine of_leading ?_ (settled_word w h ts)
  rw [leading_word]
  rintro rfl
  exact absurd h (by decide)

theorem mark {m : String} {c : Char} (h : isMark m = true) (hm : m.toList = [c])
    (hc : Level.ofSign c = none) (ts : List Token) (hp : c ≠ ')' := by decide) :
    ExpressionEnds (.mark m h :: ts) where
  ne_nil := List.cons_ne_nil _ _
  halts := by
    rw [isMark, hm] at h
    have hspace := (Bool.or_eq_false_iff.mp (Bool.not_eq_eq_eq_not.mp h)).1
    rw [spread_cons]
    show Halts (m.toList ++ _)
    rw [hm]
    exact .cons hspace hc hp _

theorem of_onward (h : Onward ts) : ExpressionEnds ts :=
  of_leading (h.leading_ne (by decide)) h.settled

end ExpressionEnds

open Rule Cursor

variable {ts more : List Token}

theorem Form.takes {room : Nat} {e : Expression} {t : Token} (h : Form room e t)
    (hts : ExpressionEnds ts) :
    Takes (Before (t :: ts)) (spaced (expression room)) (· = e) (Before ts) := by
  refine Takes.before (Takes.spaced fun c hc => ?_)
  obtain ⟨u, us, rfl⟩ := List.exists_cons_of_ne_nil hts.ne_nil
  obtain ⟨place, hread⟩ := h.reads.before hts.halts t.skipped t.opens.settled h.closed c.toPlace
  have hrest : c.rest = t.text ++ ' ' :: spread (u :: us) := hc
  rw [← hrest] at hread
  exact ⟨e, _, hread, rfl, .inl (front_eq_spread hts.halts.settled).symm⟩

namespace Rule

/-! ## Options and attributes -/

/-- A word and what it is for. -/
def keyed (w : String) (p : Rule α) (f : α → β) : Rule β := do
  keyword w
  pure (f (← cut (spaced p)))

theorem Takes.keyed {w : String} {h : isRun w = true} {p : Rule α} {us : List Token} {value : α}
    {f : α → β} (hp : Takes (Before us) (Rule.spaced p) (· = value) (Before ts)) :
    Takes (At (.word w h :: us)) (keyed w p f) (· = f value) (Before ts) :=
  (ReadsToken.keyword w h).takes.seq (hp.cut.seq (.pure rfl))

theorem Declines.keyed {w : String} {p : Rule α} {f : α → β} (h : isRun w = true) :
    Declines [w] (keyed w p f) :=
  (Declines.keyword h).bind

/-- The alternative of a word, if those in front of it are for other words. -/
theorem Takes.choose {w : String} {h : isRun w = true} {us : List Token} {keys : List (List String)}
    {rules : List (Rule α)} {p : Rule α} {Q : α → Prop} {T : Cursor → Prop}
    (hkeys : List.Forall₂ Declines keys rules) (i : Nat) (hi : rules[i]? = some p)
    (hfree : w ∉ (keys.take i).flatten) (hread : Takes (At (.word w h :: us)) p Q T) :
    Takes (At (.word w h :: us)) (Rule.firstOf rules) Q T :=
  .firstOf hkeys i hi (by rwa [leading_word]) hread

theorem Stops.item {p : Rule α} (h : Stops (At ts) p) :
    Stops (Before ts) (Rule.spaced (Rule.located p)) :=
  Stops.spaced fun c hc => h.located c hc.before

/-- Items that are spelled one after another are read one after another.  `N` is what each of
them needs of the tokens that follow it. -/
theorem Takes.items {p : Rule α} {f : α → α} {S : α → List Token → Prop}
    {N : List Token → Prop} {xs : List (Located α)} {ws : List Token}
    (hread : ∀ x us us', S x us → N us' →
      Takes (At (us ++ us')) p (fun v => f v = f x) (Before us'))
    (hnext : ∀ x us, S x us → us ≠ [] ∧ ∀ us', N (us ++ us'))
    (hmore : N more) (hstop : Stops (At more) p) (h : AllSpelled S xs ws) :
    Takes (Before (ws ++ more)) (Rule.items p)
      (fun vs => vs.map (Located.unplaced f) = xs.map (Located.unplaced f)) (Before more) := by
  induction h with
  | nil => exact (Takes.many_nil hstop.item).imp fun _ hv => hv ▸ rfl
  | @cons x xs ws rest hx hxs ih =>
    have hrest : N (rest ++ more) := by
      cases hxs with
      | nil => exact hmore
      | cons hy => rw [List.append_assoc]; exact (hnext _ _ hy).2 _
    have hitem := (hread _ _ _ hx hrest).located.here.spaced
    rw [List.append_assoc]
    refine (Takes.many_cons (hnext _ _ hx).1 hitem ih).imp ?_
    rintro _ ⟨v, others, rfl, hv, hothers⟩
    rw [List.map_cons, List.map_cons, hothers, Located.unplaced, Located.unplaced, hv]

theorem Declines.durationModifier : Declines ["duration"] durationModifier :=
  .keyed (by decide +kernel)

theorem Declines.animationModifier : Declines ["duration", "repeat"] animationModifier :=
  Declines.durationModifier.orElse (.keyed (by decide +kernel))

theorem Declines.tweenModifier : Declines ["duration", "easing"] tweenModifier :=
  Declines.durationModifier.orElse (.keyed (by decide +kernel))

theorem Declines.musicModifier : Declines ["loop", "volume"] musicModifier :=
  Declines.orElse (.keyed (by decide +kernel)) (.keyed (by decide +kernel))

variable {m : Modifier} {ws : List Token}

theorem Takes.durationModifier (d : Duration) :
    Takes (At (.word "duration" :: .duration d :: ts)) durationModifier (· = .duration d)
      (Before ts) :=
  .keyed (ReadsToken.duration d).spaced

theorem Takes.animationModifier (hm : m.IsOfAnimation) (h : m.Spelled ws) :
    Takes (At (ws ++ ts)) animationModifier (· = m) (Before ts) := by
  cases h with
  | duration d => exact (Takes.durationModifier d).orElse_left
  | cycles n =>
    have hother := Declines.durationModifier (.word "repeat" :: .integer n :: ts)
      (leading_word_notMem (by decide))
    exact .orElse_right hother (.keyed (ReadsToken.integer n).spaced)
  | easing | looping | volume => exact hm.elim

theorem Takes.tweenModifier (hm : m.IsOfTween) (h : m.Spelled ws) :
    Takes (At (ws ++ ts)) tweenModifier (· = m) (Before ts) := by
  cases h with
  | duration d => exact (Takes.durationModifier d).orElse_left
  | @easing name hname =>
    have hother := Declines.durationModifier (.word "easing" :: .name name hname :: ts)
      (leading_word_notMem (by decide))
    exact .orElse_right hother (.keyed (ReadsToken.identifier hname).spaced)
  | cycles | looping | volume => exact hm.elim

theorem Takes.musicModifier (hm : m.IsOfMusic fun _ => True) (h : m.Spelled ws) :
    Takes (At (ws ++ ts)) musicModifier (· = m) (Before ts) := by
  cases h with
  | looping b => exact Takes.orElse_left (.keyed (ReadsToken.boolean b).spaced)
  | volume n =>
    have hother := Declines.keyword (w := "loop") (by decide +kernel)
      (.word "volume" :: .number n :: ts) (leading_word_notMem (by decide))
    exact .orElse_right hother.bind (.keyed (ReadsToken.signedNumber n).spaced)
  | duration | cycles | easing => exact hm.elim

/-- Options of a kind, in front of something that is no option of the kind. -/
theorem Takes.modifiers {kind : Modifier → Prop} {p : Rule Modifier} {keys : List String}
    {modifiers : List (Located Modifier)} (h : ModifiersSpelled kind modifiers ws)
    (hread : ∀ m us us', kind m → m.Spelled us → Takes (At (us ++ us')) p (· = m) (Before us'))
    (hp : Declines keys p) (hts : leading ts ∉ keys) :
    Takes (Before (ws ++ ts)) (Rule.items p)
      (fun vs => vs.map (Located.unplaced id) = modifiers.map (Located.unplaced id))
      (Before ts) := by
  refine Takes.items (N := fun _ => True) (fun m us us' hm _ => hread m us us' hm.1 hm.2)
    (fun m us hm => ⟨?_, fun _ => trivial⟩) trivial (hp ts hts) h
  cases hm.2 <;> exact List.cons_ne_nil _ _

theorem Takes.point (x y : SignedNumeral) :
    Takes (Before (pointTokens x y ++ ts)) point (· = ⟨x.value, y.value⟩) (Before ts) := by
  refine (Takes.symbol "[" _).seq ?_
  refine (ReadsToken.signedNumber x).spaced.seq ?_
  refine (Takes.symbol "," _).seq ?_
  refine (ReadsToken.signedNumber y).spaced.seq ?_
  exact (Takes.symbol "]" _).seq (.pure rfl)

/-! ### Attributes -/

/-- The words of the attributes, in the order in which the rules try them. -/
def attributeKeys : List (List String) :=
  [[""], ["at"], ["size"], ["color"], ["font_size"], ["autoplay"], ["loop"], ["animate"]]

def attributeRules : List (Rule Attribute) :=
  [do text "#"; pure (.id (← cut identifier)), keyed "at" point .place, keyed "size" point .size,
    keyed "color" stringLiteral .color, keyed "font_size" signedNumber .fontSize,
    keyed "autoplay" boolean .autoplay, keyed "loop" boolean .looping, animateAttribute]

theorem agentAttribute_eq : agentAttribute = firstOf attributeRules := rfl

theorem attributeRules_decline : List.Forall₂ Declines attributeKeys attributeRules := by
  have hkeyed (w : String) (hw : isRun w = true) {α : Type} (p : Rule α) (f : α → Attribute) :
      Declines [w] (keyed w p f) := .keyed hw
  refine .cons Declines.numberSign.bind (.cons (hkeyed _ ?_ _ _) (.cons (hkeyed _ ?_ _ _)
    (.cons (hkeyed _ ?_ _ _) (.cons (hkeyed _ ?_ _ _) (.cons (hkeyed _ ?_ _ _)
    (.cons (hkeyed _ ?_ _ _) (.cons (Declines.keyword ?_).bind .nil))))))) <;> decide +kernel

theorem Takes.agentAttribute {a : Attribute} (h : a.Spelled ws)
    (hts : leading ts ∉ ["duration", "repeat"]) :
    Takes (At (ws ++ ts)) agentAttribute (fun v => v.unplaced = a.unplaced) (Before ts) := by
  have unplaced {v : Attribute} (hv : v = a) : v.unplaced = a.unplaced := congrArg _ hv
  rw [agentAttribute_eq]
  cases h with
  | @id name hname =>
    have hread : ReadsToken (do text "#"; Pure.pure (.id (← Rule.cut identifier)))
        (.target name) (Attribute.id name) :=
      fun rest hr => (Reads.text "#" _).bind ((Reads.identifier hname hr).cut.bind (.pure _ _))
    exact Takes.firstOf attributeRules_decline 0 rfl List.not_mem_nil
      (hread.takes.imp fun _ => unplaced)
  | place x y =>
    exact .choose attributeRules_decline 1 rfl (by decide)
      ((Takes.keyed (Takes.point x y).here.spaced.before).imp fun _ => unplaced)
  | size x y =>
    exact .choose attributeRules_decline 2 rfl (by decide)
      ((Takes.keyed (Takes.point x y).here.spaced.before).imp fun _ => unplaced)
  | color value =>
    exact .choose attributeRules_decline 3 rfl (by decide)
      ((Takes.keyed (ReadsToken.stringLiteral value).spaced).imp fun _ => unplaced)
  | fontSize value =>
    exact .choose attributeRules_decline 4 rfl (by decide)
      ((Takes.keyed (ReadsToken.signedNumber value).spaced).imp fun _ => unplaced)
  | autoplay value =>
    exact .choose attributeRules_decline 5 rfl (by decide)
      ((Takes.keyed (ReadsToken.boolean value).spaced).imp fun _ => unplaced)
  | looping value =>
    exact .choose attributeRules_decline 6 rfl (by decide)
      ((Takes.keyed (ReadsToken.boolean value).spaced).imp fun _ => unplaced)
  | @animate kind modifiers us hname hm =>
    have hread : Takes (At (.word "animate" :: .name kind hname :: (us ++ ts))) animateAttribute
        (fun v => v.unplaced = (Attribute.animate kind modifiers).unplaced) (Before ts) := by
      refine (ReadsToken.keyword "animate" _).takes.seq ?_
      refine (ReadsToken.identifier hname).spaced.seq ?_
      have hmodifiers := Takes.modifiers hm (fun _ _ _ => Takes.animationModifier)
        Declines.animationModifier hts
      exact hmodifiers.bind fun _ hv => .pure (congrArg (Attribute.animate kind) hv)
    exact .choose attributeRules_decline 7 rfl (by decide) hread

/-- The statement `animate` is no attribute: after the word there is a number sign and no name. -/
theorem Stops.animateAttribute (h : TellsAnimate ts) : Stops (At ts) animateAttribute := by
  by_cases hts : leading ts = "animate"
  · obtain ⟨name, us, rfl⟩ := h hts
    have hname : Stops (At (.target name :: us)) identifier := by
      intro c hc
      have hmark : Text.isNameStart '#' = false := by decide +kernel
      refine Refuses.refused (Refuses.inContext (Refuses.bind (Refuses.someChars ?_)))
      rw [hc]
      exact hmark
    refine (ReadsToken.keyword "animate" _).takes.bind_stops fun _ _ => ?_
    exact hname.spaced.bind
  · exact (Declines.keyword (by decide +kernel)).bind ts (by simpa using hts)

theorem Stops.agentAttribute (h : AttributesEnd ts) : Stops (At ts) agentAttribute := by
  refine Stops.firstOf (List.forall₂_take 7 attributeRules_decline) ?_
    (.animateAttribute h.tellsAnimate)
  have hall : ∀ w ∈ (attributeKeys.take 7).flatten,
      w ∈ ["", "at", "size", "color", "font_size", "autoplay", "loop", "duration", "repeat"] := by
    decide
  exact fun hw => h.leading_notMem (hall _ hw)

theorem Attribute.Spelled.next {a : Attribute} (h : a.Spelled ws) :
    ws ≠ [] ∧ ∀ us, leading (ws ++ us) ∉ ["duration", "repeat"] := by
  refine ⟨by cases h <;> exact List.cons_ne_nil _ _, fun us => ?_⟩
  cases h with
  | id => exact (leading_target _ us).symm ▸ (by decide)
  | _ => exact leading_word_notMem (by decide)

theorem Takes.attributes {attributes : List (Located Attribute)} (hts : AttributesEnd ts)
    (h : AllSpelled Attribute.Spelled attributes ws) :
    Takes (Before (ws ++ ts)) (Rule.items Rule.agentAttribute)
      (fun vs => vs.map (Located.unplaced Attribute.unplaced) =
        attributes.map (Located.unplaced Attribute.unplaced)) (Before ts) := by
  have hend : leading ts ∉ ["duration", "repeat"] := by
    have hall : ∀ w ∈ ["duration", "repeat"],
        w ∈ ["", "at", "size", "color", "font_size", "autoplay", "loop", "duration", "repeat"] := by
      decide
    exact fun hw => hts.leading_notMem (hall _ hw)
  exact Takes.items (fun a us us' => Takes.agentAttribute) (fun a us => Attribute.Spelled.next)
    hend (.agentAttribute hts) h

/-! ## Statements -/

theorem Takes.unplaced {S T : Cursor → Prop} {p : Rule Command} {c : Command}
    (h : Takes S p (· = c) T) : Takes S p (fun v => v.unplaced = c.unplaced) T :=
  h.imp fun _ => congrArg Command.unplaced

theorem Stops.word {w : String} (h : isRun w = true) (hts : leading ts ≠ w) :
    Stops (Before ts) (Rule.word w) :=
  (Declines.keyword h ts (by simpa using hts)).spaced

theorem Stops.stringLiteral (hts : leading ts ≠ "") : Stops (At ts) stringLiteral := by
  intro c hc
  obtain ⟨rest, hfront, -, hname⟩ := front_eq_leading ts
  refine Refuses.refused (Refuses.stringLiteral ?_)
  rw [hc, hfront]
  cases hl : (leading ts).toList with
  | nil => exact absurd (String.toList_eq_nil_iff.mp hl) hts
  | cons d more =>
    rw [hl] at hname
    rintro ⟨⟩
    exact absurd (hname '"' (List.mem_cons_self ..)) (by decide +kernel)

theorem enclosed_append (ws ts : List Token) :
    enclosed ws ++ ts = .word "do" :: (ws ++ .word "end" :: ts) :=
  congrArg (Token.word "do" :: ·) (List.append_assoc ..)

theorem Takes.block {what : String} {contents : Rule α} {Q : α → Prop}
    (h : Takes (Before (ws ++ .word "end" :: ts)) contents Q (Before (.word "end" :: ts))) :
    Takes (Before (enclosed ws ++ ts)) (Rule.block what contents) Q (Before ts) := by
  rw [enclosed_append]
  refine (Takes.word "do" _).seq (h.bind fun _ hv => ?_)
  exact (Takes.word "end" _).inContext.seq (.pure hv)

variable {room : Nat} {contents : Rule (List (Located Node))}

theorem Takes.assignment (isInit : Bool) (x : Variable) {e : Expression} {t : Token}
    (he : Form room e t) (hts : ExpressionEnds ts) :
    Takes (At (.word (if isInit then "init" else "set") (by cases isInit <;> decide +kernel) ::
        .var x :: .word "to" :: t :: ts)) (Rule.assignment room)
      (· = if isInit then .init x.name e else .set x.name e) (Before ts) := by
  have hrest : Takes (Before (.var x :: .word "to" :: t :: ts)) (Rule.cut do
      let name ← Rule.spaced Rule.variableName
      Rule.word "to"
      let value ← Rule.spaced (Rule.expression room)
      Pure.pure (if isInit then Command.init name value else .set name value))
      (· = if isInit then .init x.name e else .set x.name e) (Before ts) := by
    refine Takes.cut ((ReadsToken.variableName x).spaced.seq ?_)
    exact (Takes.word "to" _).seq ((he.takes hts).seq (.pure rfl))
  cases isInit with
  | true =>
    have hword : Takes (At (.word "init" :: .var x :: .word "to" :: t :: ts))
        (do Rule.keyword "init"; Pure.pure true) (· = true)
        (Before (.var x :: .word "to" :: t :: ts)) :=
      (ReadsToken.keyword "init" _).takes.seq (.pure rfl)
    exact hword.orElse_left.seq hrest
  | false =>
    have hword : Takes (At (.word "set" :: .var x :: .word "to" :: t :: ts))
        (do Rule.keyword "set"; Pure.pure false) (· = false)
        (Before (.var x :: .word "to" :: t :: ts)) :=
      (ReadsToken.keyword "set" _).takes.seq (.pure rfl)
    have hother := Declines.keyword (w := "init") (by decide +kernel)
      (.word "set" :: .var x :: .word "to" :: t :: ts) (leading_word_notMem (by decide))
    exact (hword.orElse_right hother.bind).seq hrest

theorem Takes.addition (x : Variable) {e : Expression} {t : Token} (he : Form room e t) :
    Takes (At (.word "add" :: t :: .word "to" :: .var x :: ts)) (Rule.addition room)
      (· = .add x.name e) (Before ts) := by
  refine (ReadsToken.keyword "add" _).takes.seq (Takes.cut ?_)
  refine (he.takes (.word "to" _ _)).seq ((Takes.word "to" _).seq ?_)
  exact (ReadsToken.variableName x).spaced.seq (.pure rfl)

theorem Takes.subtraction (x : Variable) {e : Expression} {t : Token} (he : Form room e t) :
    Takes (At (.word "subtract" :: t :: .word "from" :: .var x :: ts)) (Rule.subtraction room)
      (· = .subtract x.name e) (Before ts) := by
  refine (ReadsToken.keyword "subtract" _).takes.seq (Takes.cut ?_)
  refine (he.takes (.word "from" _ _)).seq ((Takes.word "from" _).seq ?_)
  exact (ReadsToken.variableName x).spaced.seq (.pure rfl)

theorem Takes.turn_page (page : Int64) :
    Takes (At (.word "go" :: .word "to" :: .word "page" :: .integer page :: ts)) turn
      (· = .goToPage page) (Before ts) := by
  refine (ReadsToken.keyword "go" _).takes.seq (Takes.cut (Takes.inContext (.orElse_left ?_)))
  refine (Takes.word "to" _).seq ((Takes.word "page" _).seq ?_)
  exact (ReadsToken.integer page).spaced.cut.seq (.pure rfl)

theorem Takes.turn_back :
    Takes (At (.word "go" :: .word "back" :: ts)) turn (· = .goBack) (Before ts) := by
  refine (ReadsToken.keyword "go" _).takes.seq (Takes.cut (Takes.inContext ?_))
  have hother : Stops (Before (.word "back" :: ts)) (Rule.word "to") :=
    .word (by decide +kernel) (leading_word_ne (by decide))
  exact .orElse_right hother.bind ((Takes.word "back" _).seq (.pure rfl))

theorem Takes.expressionPair {x y : Expression} {t u : Token} (hx : Form room x t)
    (hy : Form room y u) :
    Takes (Before (.mark "[" :: t :: .mark "," :: u :: .mark "]" :: ts))
      (Rule.expressionPair room) (· = (x, y)) (Before ts) := by
  refine (Takes.symbol "[" _).seq (Takes.cut ?_)
  refine (hx.takes (.mark _ rfl rfl _)).seq ((Takes.symbol "," _).seq ?_)
  refine (hy.takes (.mark _ rfl rfl _)).seq ?_
  exact (Takes.symbol "]" _).seq (.pure rfl)

theorem Takes.movement {target : String} {x y : Expression} {t u : Token}
    {modifiers : List (Located Modifier)} (hname : Text.isName target.toList = true)
    (hx : Form room x t) (hy : Form room y u)
    (hm : ModifiersSpelled Modifier.IsOfTween modifiers ws) (hts : Onward ts) :
    Takes (At (.word "move" :: .target target :: .word "to" :: .mark "[" :: t :: .mark "," :: u ::
        .mark "]" :: (ws ++ ts))) (Rule.movement room)
      (fun v => v.unplaced = (Command.move target x y modifiers).unplaced) (Before ts) := by
  refine (ReadsToken.keyword "move" _).takes.seq (Takes.cut ?_)
  refine (ReadsToken.target hname).spaced.seq ((Takes.word "to" _).seq ?_)
  refine (Takes.expressionPair hx hy).seq ?_
  have hmodifiers := Takes.modifiers hm (fun _ _ _ => Takes.tweenModifier) Declines.tweenModifier
    (hts.notMem (by decide))
  exact hmodifiers.bind fun _ hv => .pure (congrArg (Command.move target x y) hv)

theorem Takes.property {name : String} (hname : Text.isName name.toList = true) {e : Expression}
    {t : Token} (he : Form room e t) (hts : ExpressionEnds ts) :
    Takes (Before (.name name hname :: .mark ":" :: t :: ts))
      (Rule.spaced (Rule.property room)) (fun v => v.value = ⟨name, e⟩) (At ts) := by
  refine Takes.spaced ((ReadsToken.identifier hname).takes.located.here.bind fun v hv => ?_)
  refine (Takes.cut ((Takes.symbol ":" _).seq (he.takes hts))).seq (.pure ?_)
  exact congrArg (Property.mk · e) hv

theorem Stops.comma : Stops (Before (.mark "\x7d" :: ts)) (Rule.symbol ",") := by
  refine Stops.spaced fun c hc => Refuses.refused ?_
  rw [hc]
  exact (Refuses.text_of_head (by decide +kernel)).named

/-- Properties after a comma. -/
theorem Takes.properties {properties : List (Located Property)}
    (h : PropertiesSpelled (Form room) properties ws) :
    Takes (Before (.mark "," :: (ws ++ .mark "\x7d" :: ts)))
      (many do Rule.symbol ","; Rule.spaced (Rule.property room))
      (fun vs => vs.map (Located.unplaced id) = properties.map (Located.unplaced id))
      (Before (.mark "\x7d" :: ts)) := by
  have hnext {position : Position} {name : String} (hname : Text.isName name.toList = true)
      {e : Expression} {t : Token} {more : List Token} {others : List (Located Property)}
      (he : Form room e t) (hmore : ExpressionEnds more)
      (hmany : Takes (Before more) (many do Rule.symbol ","; Rule.spaced (Rule.property room))
        (fun vs => vs.map (Located.unplaced id) = others.map (Located.unplaced id))
        (Before (.mark "\x7d" :: ts))) :
      Takes (Before ([.mark ",", .name name hname, .mark ":", t] ++ more))
        (many do Rule.symbol ","; Rule.spaced (Rule.property room))
        (fun vs => vs.map (Located.unplaced id) =
          (⟨position, name, e⟩ :: others).map (Located.unplaced id))
        (Before (.mark "\x7d" :: ts)) := by
    have hitem : Takes (Before (.mark "," :: .name name hname :: .mark ":" :: t :: more))
        (do Rule.symbol ","; Rule.spaced (Rule.property room)) (fun v => v.value = ⟨name, e⟩)
        (At more) :=
      (Takes.symbol "," _).seq (Takes.property hname he hmore)
    refine (Takes.many_cons (List.cons_ne_nil _ _) hitem hmany).imp ?_
    rintro _ ⟨v, vs, rfl, hv, hvs⟩
    rw [List.map_cons, List.map_cons, hvs, Located.unplaced, Located.unplaced, hv]
  induction h with
  | one hname he =>
    refine hnext hname he (.mark _ rfl rfl _) ?_
    exact (Takes.many_nil Stops.comma.bind).imp fun _ hv => hv ▸ rfl
  | cons hname he _ ih => exact hnext hname he (.mark _ rfl rfl _) ih

theorem Takes.tweening {target : String} {properties : List (Located Property)}
    {modifiers : List (Located Modifier)} {ps : List Token}
    (hname : Text.isName target.toList = true) (hp : PropertiesSpelled (Form room) properties ps)
    (hm : ModifiersSpelled Modifier.IsOfTween modifiers ws) (hts : Onward ts) :
    Takes (At (.word "tween" :: .target target :: .word "to" :: .mark "\x7b" ::
        (ps ++ .mark "\x7d" :: (ws ++ ts)))) (Rule.tweening room)
      (fun v => v.unplaced = (Command.tween target properties modifiers).unplaced)
      (Before ts) := by
  refine (ReadsToken.keyword "tween" _).takes.seq (Takes.cut ?_)
  refine (ReadsToken.target hname).spaced.seq ((Takes.word "to" _).seq ?_)
  refine (Takes.symbol "\x7b" _).seq ?_
  have hproperties : Takes (Before (ps ++ .mark "\x7d" :: (ws ++ ts)))
      (Rule.separated (Rule.symbol ",") (Rule.spaced (Rule.property room)))
      (fun vs => vs.map (Located.unplaced id) = properties.map (Located.unplaced id))
      (Before (.mark "\x7d" :: (ws ++ ts))) := by
    cases hp with
    | one hname he =>
      refine (Takes.property hname he (.mark _ rfl rfl _)).before.bind fun v hv => ?_
      refine (Takes.many_nil Stops.comma.bind).seq (.pure ?_)
      exact congrArg (fun p : Property => [(⟨default, p⟩ : Located Property)]) hv
    | cons hname he hp =>
      refine (Takes.property hname he (.mark _ rfl rfl _)).before.bind fun v hv => ?_
      refine (Takes.properties hp).bind fun vs hvs => .pure ?_
      rw [List.map_cons, List.map_cons, hvs, Located.unplaced, Located.unplaced, hv]
  refine hproperties.bind fun vs hvs => (Takes.symbol "\x7d" _).seq ?_
  have hmodifiers := Takes.modifiers hm (fun _ _ _ => Takes.tweenModifier) Declines.tweenModifier
    (hts.notMem (by decide))
  refine hmodifiers.bind fun us hus => .pure ?_
  rw [Command.unplaced, Command.unplaced, hvs, hus]

theorem Takes.animating {target kind : String} {modifiers : List (Located Modifier)}
    (hname : Text.isName target.toList = true) (hkind : Text.isName kind.toList = true)
    (hm : ModifiersSpelled Modifier.IsOfAnimation modifiers ws) (hts : Onward ts) :
    Takes (At (.word "animate" :: .target target :: .name kind hkind :: (ws ++ ts))) animating
      (fun v => v.unplaced = (Command.animate target kind modifiers).unplaced) (Before ts) := by
  refine (ReadsToken.keyword "animate" _).takes.seq (Takes.cut ?_)
  refine (ReadsToken.target hname).spaced.seq ((ReadsToken.identifier hkind).spaced.seq ?_)
  have hmodifiers := Takes.modifiers hm (fun _ _ _ => Takes.animationModifier)
    Declines.animationModifier (hts.notMem (by decide))
  exact hmodifiers.bind fun _ hv => .pure (congrArg (Command.animate target kind) hv)

/-- The statement `stop`, whose alternatives are told apart by the next word. -/
theorem Takes.stopping_animation {target : String} (hname : Text.isName target.toList = true) :
    Takes (At (.word "stop" :: .word "animation" :: .target target :: ts)) stopping
      (· = .stopAnimation target) (Before ts) := by
  refine (ReadsToken.keyword "stop" _).takes.seq (Takes.cut (Takes.inContext (.orElse_left ?_)))
  exact (Takes.word "animation" _).seq ((ReadsToken.target hname).spaced.cut.seq (.pure rfl))

theorem Takes.stopping_sound {us : List Token} {src : Option String}
    (hsrc : Takes (Before us) (Rule.optional (Rule.spaced stringLiteral)) (· = src) (Before ts)) :
    Takes (At (.word "stop" :: .word "sound" :: us)) stopping (· = .stopSound src)
      (Before ts) := by
  refine (ReadsToken.keyword "stop" _).takes.seq (Takes.cut (Takes.inContext ?_))
  have hother : Stops (Before (.word "sound" :: us)) (Rule.word "animation") :=
    .word (by decide +kernel) (leading_word_ne (by decide))
  refine .orElse_right hother.bind (.orElse_left ?_)
  exact (Takes.word "sound" _).seq (hsrc.seq (.pure rfl))

theorem Takes.stopping_music :
    Takes (At (.word "stop" :: .word "music" :: ts)) stopping (· = .stopMusic) (Before ts) := by
  refine (ReadsToken.keyword "stop" _).takes.seq (Takes.cut (Takes.inContext ?_))
  have hother {w : String} (hw : isRun w = true) (hne : "music" ≠ w) :
      Stops (Before (.word "music" :: ts)) (Rule.word w) := .word hw (leading_word_ne hne)
  refine .orElse_right (hother (by decide +kernel) (by decide)).bind ?_
  refine .orElse_right (hother (by decide +kernel) (by decide)).bind ?_
  exact (Takes.word "music" _).seq (.pure rfl)

/-- The volume of a sound. -/
def soundVolume : Rule Float := do
  word "volume"
  cut (spaced signedNumber)

theorem Takes.volume (volume : SignedNumeral) :
    Takes (Before (.word "volume" :: .number volume :: ts)) (Rule.optional soundVolume)
      (· = some volume.value) (Before ts) := by
  refine Takes.optional_exactly ((Takes.word "volume" _).seq ?_)
  exact (ReadsToken.signedNumber volume).spaced.cut

theorem Takes.noVolume (hts : Onward ts) :
    Takes (Before ts) (Rule.optional soundVolume) (· = none) (Before ts) := by
  have hnone : Stops (Before ts) (Rule.word "volume") :=
    .word (by decide +kernel) (hts.leading_ne (by decide))
  exact .optional_none hnone.bind

theorem Takes.playing {us : List Token} (src : String) {volume : Option Float}
    (hvolume : Takes (Before us) (Rule.optional soundVolume) (· = volume) (Before ts)) :
    Takes (At (.word "play" :: .word "sound" :: .string src :: us)) playing
      (· = .playSound src volume) (Before ts) := by
  refine (ReadsToken.keyword "play" _).takes.seq (Takes.cut ?_)
  refine (Takes.word "sound" _).seq ((ReadsToken.stringLiteral src).spaced.seq ?_)
  exact hvolume.seq (.pure rfl)

theorem Takes.music (src : String) {modifiers : List (Located Modifier)}
    (hm : ModifiersSpelled (Modifier.IsOfMusic fun _ => True) modifiers ws) (hts : Onward ts) :
    Takes (At (.word "music" :: .string src :: (ws ++ ts))) Rule.music
      (fun v => v.unplaced = (Command.music src modifiers).unplaced) (Before ts) := by
  refine (ReadsToken.keyword "music" _).takes.seq (Takes.cut ?_)
  refine (ReadsToken.stringLiteral src).spaced.seq ?_
  have hmodifiers := Takes.modifiers hm (fun _ _ _ => Takes.musicModifier)
    Declines.musicModifier (hts.notMem (by decide))
  exact hmodifiers.bind fun _ hv => .pure (congrArg (Command.music src) hv)

theorem Takes.timerHead (interval : Duration) (times : Option UInt32) :
    Takes (At (.word "timer" :: .word "every" :: .duration interval ::
        (timesTokens times ++ .word "do" :: ts))) timerHead (· = (interval, times))
      (Before (.word "do" :: ts)) := by
  refine (ReadsToken.keyword "timer" _).takes.seq (Takes.cut ?_)
  refine (Takes.word "every" _).seq ((ReadsToken.duration interval).spaced.seq ?_)
  have htimes : Takes (Before (timesTokens times ++ .word "do" :: ts))
      (Rule.optional do Rule.word "repeat"; Rule.cut (Rule.spaced count)) (· = times)
      (Before (.word "do" :: ts)) := by
    cases times with
    | none =>
      have hother : Stops (Before (.word "do" :: ts)) (Rule.word "repeat") :=
        .word (by decide +kernel) (leading_word_ne (by decide))
      exact .optional_none hother.bind
    | some n =>
      refine Takes.optional_exactly ((Takes.word "repeat" _).seq ?_)
      exact (ReadsToken.count n).spaced.cut
  exact htimes.seq (.pure rfl)

section Blocks

variable {items : List (Located Node)}
  (hcontents : Takes (Before (ws ++ .word "end" :: ts)) contents
    (fun vs => unplacedItems vs = unplacedItems items) (Before (.word "end" :: ts)))

include hcontents

theorem Takes.waiting (delay : Duration) :
    Takes (At (.word "wait" :: .duration delay :: (enclosed ws ++ ts))) (Rule.waiting contents)
      (fun v => v.unplaced = (Command.wait delay items).unplaced) (Before ts) := by
  refine (ReadsToken.keyword "wait" _).takes.seq ((ReadsToken.duration delay).spaced.cut.seq ?_)
  exact hcontents.block.cut.bind fun _ hv => .pure (congrArg (Command.wait delay) hv)

theorem Takes.ticking (interval : Duration) (times : Option UInt32) :
    Takes (At (.word "timer" :: .word "every" :: .duration interval ::
        (timesTokens times ++ (enclosed ws ++ ts)))) (Rule.ticking contents)
      (fun v => v.unplaced = (Command.timer interval times items).unplaced) (Before ts) := by
  refine (Takes.timerHead interval times).seq ?_
  exact hcontents.block.cut.bind fun _ hv => .pure (congrArg (Command.timer interval times) hv)

end Blocks

end Rule

end Storybook.Script
