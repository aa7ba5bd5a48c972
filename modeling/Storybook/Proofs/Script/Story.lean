/-
# `Storybook.Proofs.Script.Story` — the story that a tree stands for

What a tree stands for is said part by part, without ids and without looking for faults: every
list of items becomes the agents of those items that are agents and the statements of those that
are statements, each kind in the order of the list.

| part of the tree | part of the story |
| :-- | :-- |
| a block | `agentsOf items = items.filterMap (·.value.toAgent?)` |
| | `statementsOf items = items.filterMap (·.value.toStatement?)` |
| attributes and options | for each field what the first one of its key says, `said` |
| properties | a table |
| durations | milliseconds |

Assembly goes through lists of options with a record that it fills (`collect`); where nothing is
repeated, each field is what the list says of it (`said_of_collect`).
-/
import Storybook.Proofs.Script.Faults
import Storybook.Proofs.Script.Naming

namespace Storybook.Script

/-! ## Attributes and options -/

/-- What the first of some items gives that gives anything. -/
def said (gives : α → Option γ) (items : List (Located α)) : Option γ :=
  items.findSome? (gives ·.value)

theorem said_cons (gives : α → Option γ) (i : Located α) (rest : List (Located α)) :
    said gives (i :: rest) = (gives i.value).or (said gives rest) := by
  unfold said
  rw [List.findSome?_cons]
  cases gives i.value with
  | none => rfl
  | some x => rfl

namespace Modifier

/-- The duration that an option gives, in milliseconds. -/
def duration? : Modifier → Option UInt64
  | duration d => some d.milliseconds
  | _ => none

/-- How often an option repeats an animation. -/
def cycles? : Modifier → Option Int64
  | cycles n => some n
  | _ => none

def easing? : Modifier → Option String
  | easing name => some name
  | _ => none

/-- Whether an option repeats music. -/
def looping? : Modifier → Option Bool
  | looping b => some b
  | _ => none

def volume? : Modifier → Option Float
  | volume x => some x
  | _ => none

end Modifier

/-- The animation of a kind with some options. -/
def animationOf (kind : String) (modifiers : List (Located Modifier)) : AnimationSpec :=
  ⟨kind, said Modifier.duration? modifiers, said Modifier.cycles? modifiers⟩

/-- The options of a movement. -/
def tweenOf (modifiers : List (Located Modifier)) : TweenOptions :=
  ⟨said Modifier.duration? modifiers, said Modifier.easing? modifiers⟩

/-- The options of music, which is played once if nothing is said. -/
def musicOf (modifiers : List (Located Modifier)) : MusicOptions :=
  ⟨(said Modifier.looping? modifiers).getD false, said Modifier.volume? modifiers⟩

def propertiesOf (properties : List (Located Property)) : Table Expression :=
  .ofList (properties.map fun p => (p.value.name, withPlaceholders p.value.value))

namespace Attribute

def place? : Attribute → Option Point
  | place p => some p
  | _ => none

def size? : Attribute → Option Point
  | size p => some p
  | _ => none

def color? : Attribute → Option String
  | color name => some name
  | _ => none

def fontSize? : Attribute → Option Float
  | fontSize x => some x
  | _ => none

/-- Whether an attribute starts a video. -/
def autoplay? : Attribute → Option Bool
  | autoplay b => some b
  | _ => none

/-- Whether an attribute repeats a video. -/
def looping? : Attribute → Option Bool
  | looping b => some b
  | _ => none

def animation? : Attribute → Option AnimationSpec
  | animate kind modifiers => some (animationOf kind modifiers)
  | _ => none

end Attribute

/-! ## Nodes and trees -/

mutual

/-- The agent that a node stands for, without ids. -/
def Node.toAgent? : Node → Option Agent
  | .text content l => some (.text ⟨"", interpolated content, said Attribute.place? l,
      said Attribute.fontSize? l, said Attribute.color? l, said Attribute.animation? l⟩)
  | .button label l handlers => some (.button ⟨"", interpolated label, said Attribute.place? l,
      said Attribute.size? l, said Attribute.color? l, said Attribute.animation? l,
      handlersOf handlers⟩)
  | .image src l => some (.image ⟨"", src, said Attribute.place? l, said Attribute.size? l,
      said Attribute.animation? l⟩)
  | .video src l => some (.video ⟨"", src, said Attribute.place? l, said Attribute.size? l,
      (said Attribute.autoplay? l).getD false, (said Attribute.looping? l).getD false,
      said Attribute.animation? l⟩)
  | .choice condition items elseItems =>
    some (.choice (withPlaceholders condition) (agentsOf items) (agentsOf elseItems))
  | .forEach name range items => some (.forEach name (withPlaceholders range) (agentsOf items))
  | .wait delay items => some (.wait delay.milliseconds (agentsOf items) (statementsOf items))
  | .timer interval times items =>
    some (.timer interval.milliseconds times (statementsOf items))
  | .page .. | .autoAdvance _ | .statement _ => none

def Node.toStatement? : Node → Option Statement
  | .statement command => some (Command.toStatement command)
  | _ => none

def Command.toStatement : Command → Statement
  | .init name value => .init name (withPlaceholders value)
  | .set name value => .set name (withPlaceholders value)
  | .add name amount => .add name (withPlaceholders amount)
  | .subtract name amount => .subtract name (withPlaceholders amount)
  | .goToPage page => .goToPage page
  | .goBack => .goBack
  | .move target x y modifiers =>
    .move target (withPlaceholders x) (withPlaceholders y) (tweenOf modifiers)
  | .tween target properties modifiers =>
    .tween target (propertiesOf properties) (tweenOf modifiers)
  | .animate target kind modifiers => .animate target (animationOf kind modifiers)
  | .stopAnimation target => .stopAnimation target
  | .playSound src volume => .playSound src volume
  | .stopSound src => .stopSound src
  | .stopMusic => .stopMusic
  | .music src modifiers => .music src (musicOf modifiers)
  | .wait delay body => .wait delay.milliseconds (statementsOf body)
  | .timer interval times body => .timer interval.milliseconds times (statementsOf body)

def agentsOf : List (Located Node) → List Agent
  | [] => []
  | ⟨_, node⟩ :: rest => (Node.toAgent? node).toList ++ agentsOf rest

def statementsOf : List (Located Node) → List Statement
  | [] => []
  | ⟨_, node⟩ :: rest => (Node.toStatement? node).toList ++ statementsOf rest

def handlersOf : List (HandlerNode Node) → List Handler
  | [] => []
  | ⟨gesture, body⟩ :: rest => ⟨gesture, statementsOf body⟩ :: handlersOf rest

end

/-- The page that a node stands for, without ids of agents. -/
def Node.toPage? : Node → Option Page
  | page id items =>
    some ⟨id, agentsOf items, statementsOf items, said Node.delay? items⟩
  | _ => none

/-- The story that a tree stands for, without ids of agents. -/
def Tree.toStory (tree : Tree) : Story :=
  ⟨tree.title, tree.items.filterMap (·.value.toPage?), statementsOf tree.items⟩

theorem agentsOf_eq (items : List (Located Node)) :
    agentsOf items = items.filterMap (·.value.toAgent?) := by
  induction items with
  | nil => rfl
  | cons i rest ih =>
    rw [List.filterMap_cons, ← ih]
    show i.value.toAgent?.toList ++ agentsOf rest = _
    cases i.value.toAgent? with
    | none => rfl
    | some agent => rfl

theorem statementsOf_eq (items : List (Located Node)) :
    statementsOf items = items.filterMap (·.value.toStatement?) := by
  induction items with
  | nil => rfl
  | cons i rest ih =>
    rw [List.filterMap_cons, ← ih]
    show i.value.toStatement?.toList ++ statementsOf rest = _
    cases i.value.toStatement? with
    | none => rfl
    | some statement => rfl

/-! ## What lists without faults say -/

/-- What items with different keys say passes a test if what each of them says does. -/
theorem all_said_iff {gives : α → Option γ} {key : α → String} {k : String}
    (hkey : ∀ a, (gives a).isSome ↔ key a = k) {items : List (Located α)}
    (h : (items.map (key ·.value)).Nodup) (test : γ → Bool) :
    (said gives items).all test = true ↔ ∀ i ∈ items, (gives i.value).all test = true := by
  induction items with
  | nil => exact iff_of_true rfl nofun
  | cons i rest ih =>
    obtain ⟨hfirst, hrest⟩ := List.nodup_cons.mp h
    rw [said_cons, List.forall_mem_cons, ← ih hrest]
    cases hgives : gives i.value with
    | none =>
      rw [Option.none_or]
      exact (and_iff_right rfl).symm
    | some x =>
      have hothers : said gives rest = none := by
        refine List.findSome?_eq_none_iff.mpr fun j hj =>
          Option.not_isSome_iff_eq_none.mp fun hsome => ?_
        have hi := (hkey i.value).mp (Option.isSome_of_mem hgives)
        exact hfirst (List.mem_map.mpr ⟨j, hj, ((hkey j.value).mp hsome).trans hi.symm⟩)
      rw [hothers, Option.or_none]
      exact (and_iff_left rfl).symm

/-- Of attributes that agents of a kind do not take, nothing is said. -/
theorem said_eq_none {γ : Type} {kind : String} {taken : List String}
    {attributes : List (Located Attribute)} {gives : Attribute → Option γ} {k : String}
    (hkey : ∀ a, (gives a).isSome ↔ a.key = k)
    (h : attributeFaults kind taken attributes = []) (hk : k ∉ taken) :
    said gives attributes = none := by
  refine List.findSome?_eq_none_iff.mpr fun a ha => Option.not_isSome_iff_eq_none.mp fun hsome => ?_
  obtain ⟨front, hnone⟩ := eq_nil_of_faultsAlong h ha
  obtain ⟨htaken, -⟩ := eq_nil_of_attributeFault (List.append_eq_nil_iff.mp hnone).1
  exact hk ((hkey a.value).mp hsome ▸ htaken)

/-! ## Records that are filled -/

section Collect

variable {α β γ : Type} {key : β → String} {add : α → Located β → Checked α} {field : α → γ}
  {gives : β → Option γ} {k : String} {seen : List String} {done result : α}
  {items : List (Located β)}

/-- A field of a record that options fill: what the first option with its key says, if none had
that key before.  A second one with the key would have been refused. -/
theorem field_of_collect
    (hadd : ∀ a i next, add a i = .ok next → field next = (gives i.value).getD (field a))
    (hkey : ∀ b, (gives b).isSome ↔ key b = k)
    (h : collect key add seen done items = .ok result) :
    field result = if k ∈ seen then field done else (said gives items).getD (field done) := by
  induction items generalizing seen done with
  | nil =>
    cases h
    split
    · rfl
    · rfl
  | cons i rest ih =>
    rw [collect] at h
    split at h
    · exact nomatch h
    next hfirst =>
    rw [List.contains_iff_mem] at hfirst
    cases hnext : add done i with
    | error f => rw [hnext] at h; exact nomatch h
    | ok next =>
      rw [hnext] at h
      rw [ih h, hadd done i next hnext, said_cons]
      by_cases hk : key i.value = k
      · subst hk
        obtain ⟨x, hx⟩ := Option.isSome_iff_exists.mp ((hkey i.value).mpr rfl)
        rw [if_pos List.mem_cons_self, if_neg hfirst, hx]
        rfl
      · have hnone : gives i.value = none :=
          Option.not_isSome_iff_eq_none.mp (mt (hkey i.value).mp hk)
        have hseen : k ∈ key i.value :: seen ↔ k ∈ seen :=
          List.mem_cons.trans (or_iff_right fun h => hk h.symm)
        rw [hnone]
        simp only [hseen]
        rfl

/-- An optional field of a record that options fill, from nothing. -/
theorem said_of_collect {field : α → Option γ}
    (hadd : ∀ a i next, add a i = .ok next → field next = (gives i.value).or (field a))
    (hkey : ∀ b, (gives b).isSome ↔ key b = k) (hdone : field done = none)
    (h : collect key add [] done items = .ok result) : field result = said gives items := by
  have hnext (a : α) (i : Located β) (next : α) (h : add a i = .ok next) :
      field next = ((gives i.value).map some).getD (field a) := by
    rw [hadd a i next h]
    cases gives i.value <;> rfl
  have hsome (b : β) : ((gives b).map some).isSome ↔ key b = k := by
    rw [Option.isSome_map]
    exact hkey b
  have hfield : field result = if k ∈ [] then field done
      else (said (fun b => (gives b).map some) items).getD (field done) :=
    field_of_collect hnext hsome h
  have hmap : said (fun b => (gives b).map some) items = (said gives items).map some :=
    (List.map_findSome? ..).symm
  rw [hfield, if_neg List.not_mem_nil, hdone, hmap]
  cases said gives items with
  | none => rfl
  | some x => rfl

/-- What no option changes. -/
theorem kept_of_collect {P : α → Prop} (hadd : ∀ a i next, add a i = .ok next → P a → P next)
    (hdone : P done) (h : collect key add seen done items = .ok result) : P result := by
  induction items generalizing seen done with
  | nil =>
    cases h
    exact hdone
  | cons i rest ih =>
    rw [collect] at h
    split at h
    · exact nomatch h
    · cases hnext : add done i with
      | error f => rw [hnext] at h; exact nomatch h
      | ok next => rw [hnext] at h; exact ih (hadd done i next hnext hdone) h

end Collect

/-! ### Options -/

namespace Modifier

theorem duration?_isSome_iff (m : Modifier) : m.duration?.isSome ↔ m.key = "duration" := by
  cases m <;> simp [duration?, key]

theorem cycles?_isSome_iff (m : Modifier) : m.cycles?.isSome ↔ m.key = "repeat" := by
  cases m <;> simp [cycles?, key]

theorem easing?_isSome_iff (m : Modifier) : m.easing?.isSome ↔ m.key = "easing" := by
  cases m <;> simp [easing?, key]

theorem looping?_isSome_iff (m : Modifier) : m.looping?.isSome ↔ m.key = "loop" := by
  cases m <;> simp [looping?, key]

theorem volume?_isSome_iff (m : Modifier) : m.volume?.isSome ↔ m.key = "volume" := by
  cases m <;> simp [volume?, key]

end Modifier

variable {modifiers : List (Located Modifier)}

theorem eq_animationOf {kind : String} {spec : AnimationSpec}
    (h : animationSpec kind modifiers = .ok spec) : spec = animationOf kind modifiers := by
  have hkind : spec.kind = kind := by
    refine kept_of_collect (P := fun spec => spec.kind = kind) (fun spec m next hnext hkind => ?_)
      rfl h
    cases hm : m.value <;> rw [hm] at hnext <;> cases hnext <;> exact hkind
  have hduration : spec.duration = said Modifier.duration? modifiers := by
    refine said_of_collect (fun spec m next hnext => ?_) Modifier.duration?_isSome_iff rfl h
    cases hm : m.value <;> rw [hm] at hnext <;> cases hnext <;> rfl
  have hcycles : spec.cycles = said Modifier.cycles? modifiers := by
    refine said_of_collect (fun spec m next hnext => ?_) Modifier.cycles?_isSome_iff rfl h
    cases hm : m.value <;> rw [hm] at hnext <;> cases hnext <;> rfl
  unfold animationOf
  rw [← hkind, ← hduration, ← hcycles]

theorem eq_tweenOf {options : TweenOptions} (h : tweenOptions modifiers = .ok options) :
    options = tweenOf modifiers := by
  have hduration : options.duration = said Modifier.duration? modifiers := by
    refine said_of_collect (fun options m next hnext => ?_) Modifier.duration?_isSome_iff rfl h
    cases hm : m.value <;> rw [hm] at hnext <;> cases hnext <;> rfl
  have heasing : options.easing = said Modifier.easing? modifiers := by
    refine said_of_collect (fun options m next hnext => ?_) Modifier.easing?_isSome_iff rfl h
    cases hm : m.value <;> rw [hm] at hnext <;> cases hnext <;> rfl
  unfold tweenOf
  rw [← hduration, ← heasing]

theorem eq_musicOf {options : MusicOptions} (h : musicOptions modifiers = .ok options) :
    options = musicOf modifiers := by
  have hlooping : options.looping = (said Modifier.looping? modifiers).getD false := by
    refine field_of_collect (fun options m next hnext => ?_) Modifier.looping?_isSome_iff h
    cases hm : m.value <;> rw [hm] at hnext <;> cases hnext <;> rfl
  have hvolume : options.volume = said Modifier.volume? modifiers := by
    refine said_of_collect (fun options m next hnext => ?_) Modifier.volume?_isSome_iff rfl h
    cases hm : m.value <;> rw [hm] at hnext <;> cases hnext <;> rfl
  unfold musicOf
  rw [← hlooping, ← hvolume]

/-! ### Attributes -/

namespace Attribute

theorem place?_isSome_iff (a : Attribute) : a.place?.isSome ↔ a.key = "at" := by
  cases a <;> simp [place?, key]

theorem size?_isSome_iff (a : Attribute) : a.size?.isSome ↔ a.key = "size" := by
  cases a <;> simp [size?, key]

theorem fontSize?_isSome_iff (a : Attribute) : a.fontSize?.isSome ↔ a.key = "font_size" := by
  cases a <;> simp [fontSize?, key]

end Attribute

/-- A look with one more attribute, whatever was said before. -/
def Look.withAttribute (look : Look) (a : Attribute) : Look where
  id := a.id?.or look.id
  position := a.place?.or look.position
  size := a.size?.or look.size
  color := a.color?.or look.color
  fontSize := a.fontSize?.or look.fontSize
  autoplay := a.autoplay?.or look.autoplay
  looping := a.looping?.or look.looping
  animation := a.animation?.or look.animation

theorem Look.eq_withAttribute {look next : Look} {a : Attribute} (h : look.add a = .ok next) :
    next = look.withAttribute a := by
  cases a with
  | animate kind modifiers =>
    rw [Look.add] at h
    cases hspec : animationSpec kind modifiers with
    | error f => rw [hspec] at h; cases h
    | ok spec =>
      rw [hspec] at h
      cases h
      rw [eq_animationOf hspec]
      rfl
  | id | place | size | color | fontSize | autoplay | looping => cases h; rfl

/-- Whether a look is what attributes say. -/
structure Look.IsOf (l : List (Located Attribute)) (look : Look) : Prop where
  position : look.position = said Attribute.place? l
  size : look.size = said Attribute.size? l
  color : look.color = said Attribute.color? l
  fontSize : look.fontSize = said Attribute.fontSize? l
  autoplay : look.autoplay = said Attribute.autoplay? l
  looping : look.looping = said Attribute.looping? l
  animation : look.animation = said Attribute.animation? l

/-- Attributes that are accepted fill the look as options fill their records. -/
theorem Look.collect_of_collect {kind : String} {allowed seen : List String} {look result : Look}
    {l : List (Located Attribute)} (h : Look.collect kind allowed seen look l = .ok result) :
    Script.collect Attribute.key (fun look a => look.add a.value) seen look l = .ok result := by
  induction l generalizing seen look with
  | nil => exact h
  | cons a rest ih =>
    rw [Look.collect] at h
    rw [Script.collect]
    split at h
    · cases h
    split at h
    · cases h
    next hfirst =>
    rw [if_neg hfirst]
    cases hnext : look.add a.value with
    | error f => rw [hnext] at h; cases h
    | ok next => rw [hnext] at h; exact ih h

/-- A field of the look is what the attributes with its key say. -/
theorem Look.said_of_collect {γ : Type} {kind : String} {allowed : List String} {look : Look}
    {l : List (Located Attribute)} {field : Look → Option γ} {gives : Attribute → Option γ}
    {k : String} (h : Look.collect kind allowed [] {} l = .ok look)
    (hfield : ∀ (look : Look) a, field (look.withAttribute a) = (gives a).or (field look))
    (hkey : ∀ a : Attribute, (gives a).isSome ↔ a.key = k) (hnone : field {} = none) :
    field look = said gives l :=
  Script.said_of_collect
    (fun before a next hnext => by rw [Look.eq_withAttribute hnext]; exact hfield before a.value)
    hkey hnone (Look.collect_of_collect h)

theorem Look.isOf_of_collect {kind : String} {allowed : List String} {look : Look}
    {l : List (Located Attribute)} (h : Look.collect kind allowed [] {} l = .ok look) :
    look.IsOf l where
  position := Look.said_of_collect (k := "at") h (fun _ _ => rfl)
    Attribute.place?_isSome_iff rfl
  size := Look.said_of_collect (k := "size") h (fun _ _ => rfl)
    Attribute.size?_isSome_iff rfl
  color := Look.said_of_collect (k := "color") h (fun _ _ => rfl)
    (fun a => by cases a <;> simp [Attribute.color?, Attribute.key]) rfl
  fontSize := Look.said_of_collect (k := "font_size") h (fun _ _ => rfl)
    Attribute.fontSize?_isSome_iff rfl
  autoplay := Look.said_of_collect (k := "autoplay") h (fun _ _ => rfl)
    (fun a => by cases a <;> simp [Attribute.autoplay?, Attribute.key]) rfl
  looping := Look.said_of_collect (k := "loop") h (fun _ _ => rfl)
    (fun a => by cases a <;> simp [Attribute.looping?, Attribute.key]) rfl
  animation := Look.said_of_collect (k := "animate") h (fun _ _ => rfl)
    (fun a => by cases a <;> simp [Attribute.animation?, Attribute.key]) rfl

end Storybook.Script
