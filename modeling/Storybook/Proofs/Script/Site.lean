/-
# `Storybook.Proofs.Script.Site` — where the agents of a script stand in its text

The tree of a script lists what the script draws (`Tree.drawn`), but a tree is not the text.  The
*sites* of a tree say where in the text each agent that is drawn stands, and where its id:

| | |
| :-- | :-- |
| an agent that is drawn, its place and that of its id | `Site` |
| the sites of a tree, in its order | `Tree.sites` |
| a text stands at a position of a script | `TextAt` |
| there stand the word of the agent, and a number sign with the id | `Site.IsIn` |

The sites of the tree of a script are in it (`Tree.sites_of_read`): they come one after the other in
the text, and at each of them the script has the words that the tree says.

Two judgements carry this through the grammar.  `Copies before p text` says that the text `before`
and what `p` reads make `text v`, if `v` is the value of `p`.  `Marks source p Q` is `Yields` with a
condition that also tells of the position where the rule begins; a rule with its position
(`Marks.located`) turns it into a condition on the value, which `Yields` then hands on.
-/
import Storybook.Proofs.Script.Naming
import Storybook.Proofs.Script.Order
import Storybook.Proofs.Script.Place

namespace Storybook.Script

/-! ## Sites -/

/-- An agent that a script draws: its position, its kind, and its id with the position of the
attribute, if it has one. -/
structure Site where
  position : Position
  kind : String
  name : Option (Located String)

/-- What is drawn there. -/
def Site.drawn (s : Site) : Drawn := ⟨s.kind, s.name.map (·.value)⟩

/-- The id that an attribute gives, with the position of the attribute. -/
def Attribute.locatedId? (a : Located Attribute) : Option (Located String) :=
  a.value.id?.map fun name => ⟨a.position, name⟩

def locatedId (attributes : List (Located Attribute)) : Option (Located String) :=
  attributes.findSome? Attribute.locatedId?

theorem value_locatedId (attributes : List (Located Attribute)) :
    (locatedId attributes).map (·.value) = writtenId attributes := by
  induction attributes with
  | nil => rfl
  | cons a rest ih =>
    rw [writtenId_cons, ← ih, locatedId, List.findSome?_cons, Attribute.locatedId?]
    cases a.value.id? with
    | none => rfl
    | some name => rfl

mutual

def Node.sites (position : Position) : Node → List Site
  | text _ attributes => [⟨position, "text", locatedId attributes⟩]
  | button _ attributes _ => [⟨position, "button", locatedId attributes⟩]
  | image _ attributes => [⟨position, "image", locatedId attributes⟩]
  | video _ attributes => [⟨position, "video", locatedId attributes⟩]
  | choice _ items elseItems => Node.allSites items ++ Node.allSites elseItems
  | page _ items | forEach _ _ items | wait _ items => Node.allSites items
  | autoAdvance _ | timer .. | statement _ => []

def Node.allSites : List (Located Node) → List Site
  | [] => []
  | ⟨position, node⟩ :: rest => Node.sites position node ++ Node.allSites rest

end

/-- The sites of a script, in the order of its tree. -/
def Tree.sites (tree : Tree) : List Site := Node.allSites tree.items

mutual

theorem Node.drawn_sites (position : Position) :
    (node : Node) → (node.sites position).map Site.drawn = node.drawn
  | text _ attributes | button _ attributes _ | image _ attributes | video _ attributes =>
    congrArg (fun name => [Drawn.mk _ name]) (value_locatedId attributes)
  | choice _ items elseItems => by
    rw [sites, drawn, List.map_append, drawn_allSites items, drawn_allSites elseItems]
  | page _ items | forEach _ _ items | wait _ items => drawn_allSites items
  | autoAdvance _ | timer .. | statement _ => rfl

theorem Node.drawn_allSites :
    (items : List (Located Node)) → (allSites items).map Site.drawn = allDrawn items
  | [] => rfl
  | ⟨position, node⟩ :: rest => by
    rw [allSites, allDrawn, List.map_append, drawn_sites position node, drawn_allSites rest]

end

/-- The sites are those of what the script draws. -/
theorem Tree.drawn_sites (tree : Tree) : tree.sites.map Site.drawn = tree.drawn :=
  Node.drawn_allSites tree.items

mutual

theorem Node.sublist_sites (position : Position) : (node : Node) →
    ((node.sites position).map Site.position).Sublist (position :: node.places)
  | text .. | button .. | image .. | video .. => (List.nil_sublist _).cons_cons position
  | choice _ items elseItems => by
    rw [sites, List.map_append]
    exact ((sublist_allSites items).append (sublist_allSites elseItems)).cons position
  | page _ items | forEach _ _ items | wait _ items => (sublist_allSites items).cons position
  | autoAdvance _ | timer .. | statement _ => List.nil_sublist _

theorem Node.sublist_allSites : (items : List (Located Node)) →
    ((allSites items).map Site.position).Sublist (allPlaces items)
  | [] => .slnil
  | ⟨position, node⟩ :: rest => by
    rw [allSites, List.map_append]
    exact (sublist_sites position node).append (sublist_allSites rest)

end

theorem Node.allSites_eq (items : List (Located Node)) :
    allSites items = items.flatMap fun i => i.value.sites i.position := by
  induction items with
  | nil => rfl
  | cons i rest ih => rw [List.flatMap_cons, ← ih, allSites]

/-! ## Texts at positions -/

/-- Whether a text stands at a position of a script. -/
def TextAt (source : String) (position : Position) (text : List Char) : Prop :=
  ∃ before after, source.toList = before ++ text ++ after ∧ position = .after before

theorem textAt_of_cursor {source : String} {c : Cursor} (hc : c.IsOf source) {text : List Char}
    (h : text <+: c.rest) : TextAt source c.toPosition text := by
  obtain ⟨n, rfl⟩ := hc
  obtain ⟨after, hafter⟩ := h
  rw [Cursor.rest_advance] at hafter
  have htext : source.toList = source.toList.take n ++ text ++ after := by
    rw [List.append_assoc, hafter]
    exact (List.take_append_drop n _).symm
  refine ⟨_, after, htext, ?_⟩
  exact Cursor.position_advance n (show (Cursor.ofText source).toPosition = .after [] from rfl)

/-- Whether an agent stands in a script where a site says: there is the word of its kind, and its
id stands behind a number sign. -/
structure Site.IsIn (source : String) (s : Site) : Prop where
  kind : TextAt source s.position s.kind.toList
  name : ∀ name ∈ s.name, TextAt source name.position ('#' :: name.value.toList)

/-- Whether the sites of a node at a position are in a script. -/
def Node.Sited (source : String) (position : Position) (node : Node) : Prop :=
  ∀ s ∈ node.sites position, s.IsIn source

def Node.AllSited (source : String) (items : List (Located Node)) : Prop :=
  ∀ i ∈ items, i.value.Sited source i.position

theorem Node.allSited_iff {source : String} {items : List (Located Node)} :
    AllSited source items ↔ ∀ s ∈ allSites items, s.IsIn source := by
  rw [allSites_eq]
  simp only [AllSited, Sited, List.forall_mem_flatMap]

/-- Whether the id that an attribute gives stands at a position. -/
def Attribute.NamedAt (source : String) (position : Position) (a : Attribute) : Prop :=
  ∀ name, a.id? = some name → TextAt source position ('#' :: name.toList)

theorem namedAt_locatedId {source : String} {attributes : List (Located Attribute)}
    (h : ∀ a ∈ attributes, a.value.NamedAt source a.position) :
    ∀ name ∈ locatedId attributes, TextAt source name.position ('#' :: name.value.toList) := by
  intro name hname
  obtain ⟨a, ha, hid⟩ := List.exists_of_findSome?_eq_some hname
  obtain ⟨value, hvalue, rfl⟩ := Option.map_eq_some_iff.mp hid
  exact h a ha value hvalue

/-- An agent that is drawn, with the word of its kind and its attributes. -/
theorem isIn_locatedId {source kind : String} {position : Position}
    {attributes : List (Located Attribute)} (hkind : TextAt source position kind.toList)
    (h : ∀ a ∈ attributes, a.value.NamedAt source a.position) :
    ∀ s ∈ [Site.mk position kind (locatedId attributes)], s.IsIn source :=
  List.forall_mem_singleton.mpr ⟨hkind, namedAt_locatedId h⟩

namespace Rule

/-! ## What a rule reads -/

/-- Whether some text and what a rule reads behind it make a text that the value tells. -/
def Copies (before : List Char) (p : Rule α) (text : α → List Char) : Prop :=
  ∀ c v rest, p c = .ok v rest → before ++ c.rest = text v ++ rest.rest

section Copies

variable {before : List Char} {p : Rule α} {f : α → Rule β} {read : α → List Char}
  {more : β → List Char}

theorem Copies.pure {v : α} (h : read v = before) : Copies before (Pure.pure v : Rule α) read := by
  intro c _ rest hout
  cases hout
  rw [h]

theorem Copies.bind (hp : Copies before p read) (hf : ∀ v, Copies (read v) (f v) more) :
    Copies before (p >>= f) more := by
  intro c v rest hout
  rw [bind_apply] at hout
  cases hp' : p c with
  | ok value next =>
    rw [hp'] at hout
    rw [hp c value next hp', hf value next v rest hout]
  | refuse error => rw [hp'] at hout; exact nomatch hout
  | abort error => rw [hp'] at hout; exact nomatch hout

theorem Copies.cut (hp : Copies before p read) : Copies before (cut p) read := by
  intro c v rest hout
  unfold Rule.cut at hout
  cases hp' : p c with
  | ok value next => rw [hp'] at hout; exact hp c v rest (hp'.trans hout)
  | refuse error => rw [hp'] at hout; exact nomatch hout
  | abort error => rw [hp'] at hout; exact nomatch hout

theorem Copies.inContext {what : String} (hp : Copies before p read) :
    Copies before (inContext what p) read := by
  intro c v rest hout
  unfold Rule.inContext at hout
  cases hp' : p c with
  | ok value next => rw [hp'] at hout; exact hp c v rest (hp'.trans hout)
  | refuse error => rw [hp'] at hout; exact nomatch hout
  | abort error => rw [hp'] at hout; exact nomatch hout

/-- What is taken from the front of a text, and what is left. -/
theorem eq_append_rest_advance {c : Cursor} {chars : List Char} (h : chars <+: c.rest) :
    c.rest = chars ++ (c.advance chars.length).rest := by
  obtain ⟨after, hafter⟩ := h
  rw [Cursor.rest_advance, ← hafter, List.drop_left]

theorem Copies.text (before : List Char) (expected : String) :
    Copies before (Rule.text expected) fun _ => before ++ expected.toList := by
  intro c v rest hout
  unfold Rule.text at hout
  split at hout
  · next hfits =>
    cases hout
    rw [← String.length_toList, List.append_assoc]
    exact congrArg (before ++ ·) (eq_append_rest_advance (List.isPrefixOf_iff_prefix.mp hfits))
  · exact nomatch hout

theorem Copies.charsWhile (before : List Char) (test : Char → Bool) :
    Copies before (charsWhile test) fun v => before ++ v := by
  intro c v rest hout
  cases hout
  rw [List.append_assoc]
  exact congrArg (before ++ ·) (eq_append_rest_advance (List.takeWhile_prefix test))

theorem Copies.someChars (before : List Char) (test : Char → Bool) :
    Copies before (someChars test) fun v => before ++ v := by
  intro c v rest hout
  unfold Rule.someChars at hout
  split at hout
  · exact nomatch hout
  · cases hout
    rw [List.append_assoc]
    exact congrArg (before ++ ·) (eq_append_rest_advance (List.takeWhile_prefix test))

theorem Copies.keyword (w : String) : Copies [] (keyword w) fun _ => w.toList := by
  intro c v rest hout
  unfold Rule.keyword Rule.unfollowed Rule.token Rule.named at hout
  cases htext : Rule.text w c with
  | ok value next =>
    have hread := Copies.text [] w c value next htext
    simp only [htext] at hout
    split at hout
    · exact nomatch hout
    · cases hout
      exact hread
  | refuse error => simp only [htext] at hout; exact nomatch hout
  | abort error => simp only [htext] at hout; exact nomatch hout

theorem Copies.identifier (before : List Char) :
    Copies before identifier fun name => before ++ name.toList := by
  refine Copies.inContext ((Copies.someChars before _).bind fun first => ?_)
  refine (Copies.charsWhile _ _).bind fun others => .pure ?_
  rw [String.toList_ofList, List.append_assoc]

end Copies

/-! ## Where a rule begins -/

/-- Whether a rule goes on in a text, and its values meet a condition that tells of the position
where it begins. -/
def Marks (source : String) (p : Rule α) (Q : Position → α → Prop) : Prop :=
  ∀ c : Cursor, c.IsOf source → (p c).From c (Q c.toPosition)

section Marks

variable {source : String} {p q : Rule α} {f : α → Rule β} {Q : Position → α → Prop}
  {S : Position → β → Prop}

theorem Yields.marks {R : α → Prop} (h : Yields source p R) : Marks source p fun _ => R := h

theorem Marks.mono {R : Position → α → Prop} (h : Marks source p Q)
    (hQ : ∀ place v, Q place v → R place v) : Marks source p R := by
  intro c hc
  have hp := h c hc
  cases hout : p c with
  | ok value rest => rw [hout] at hp; exact ⟨hp.1, hQ _ value hp.2⟩
  | refuse error => rw [hout] at hp; exact hp
  | abort error => rw [hout] at hp; exact hp

theorem Marks.bind (hp : Marks source p Q) (hf : ∀ place v, Q place v →
    Yields source (f v) (S place)) : Marks source (p >>= f) S :=
  fun c hc => Outcome.From.bind (hp c hc) fun v rest hrest hv =>
    hf c.toPosition v hv rest (hc.follows hrest)

theorem Marks.orElse (hp : Marks source p Q) (hq : Marks source q Q) :
    Marks source (p <|> q) Q :=
  fun c hc => Outcome.From.orElse (hp c hc) (hq c hc)

/-- A rule that is noted with its position. -/
theorem Marks.located (h : Marks source p Q) :
    Yields source (located p) fun x => Q x.position x.value := by
  refine Yields.skip.bind fun _ _ c hc => ?_
  show ((do Pure.pure (Located.mk c.toPosition (← p)) : Rule (Located α)) c).From c _
  exact Outcome.From.bind (h c hc) fun v rest _ hv => ⟨.refl rest, hv⟩

theorem Marks.items (h : Marks source p Q) :
    Yields source (items p) fun l => ∀ x ∈ l, Q x.position x.value :=
  h.located.spaced.many

/-- What a rule copies stands where it begins. -/
theorem Copies.marks {read : α → List Char} {R : α → Prop} (h : Copies [] p read)
    (hp : Yields source p R) : Marks source p fun place v => TextAt source place (read v) := by
  intro c hc
  have hfrom := hp c hc
  cases hout : p c with
  | ok value rest =>
    rw [hout] at hfrom
    exact ⟨hfrom.1, textAt_of_cursor hc ⟨rest.rest, (h c value rest hout).symm⟩⟩
  | refuse error => rw [hout] at hfrom; exact hfrom
  | abort error => rw [hout] at hfrom; exact hfrom

end Marks

/-! ## The sites of agents -/

section Agents

variable {source : String} {room : Nat}

theorem Marks.agentAttribute : Marks source agentAttribute (Attribute.NamedAt source) := by
  have hid : Marks source (do Rule.text "#"; Pure.pure (Attribute.id (← Rule.cut Rule.identifier)))
      (Attribute.NamedAt source) := by
    have hyields : Yields source
        (do Rule.text "#"; Pure.pure (Attribute.id (← Rule.cut Rule.identifier))) fun _ => True :=
      (Yields.text _).bind fun _ _ => Yields.identifier.cut.bind fun _ _ => .pure trivial
    have hcopies : Copies []
        (do Rule.text "#"; Pure.pure (Attribute.id (← Rule.cut Rule.identifier)))
        fun a => '#' :: (a.id?.getD "").toList := by
      refine (Copies.text [] "#").bind fun _ => ?_
      exact (Copies.identifier _).cut.bind fun _ => .pure rfl
    refine (hcopies.marks hyields).mono fun place a htext name hname => ?_
    rwa [hname] at htext
  -- no other attribute gives an id
  have hother {p : Rule Attribute} (h : Yields source p fun a => a.id? = none) :
      Marks source p (Attribute.NamedAt source) :=
    h.marks.mono fun _ _ hnone _ hname => nomatch hnone.symm.trans hname
  have hnumber : Yields source Rule.signedNumber fun _ => True :=
    .signedNumber (fun _ _ => trivial) .anyNumber
  refine .orElse hid ?_
  refine .orElse (hother ((Yields.point hnumber).keyed fun _ _ => rfl)) ?_
  refine .orElse (hother ((Yields.point hnumber).keyed fun _ _ => rfl)) ?_
  refine .orElse (hother (Yields.stringLiteral.keyed fun _ _ => rfl)) ?_
  refine .orElse (hother (hnumber.keyed fun _ _ => rfl)) ?_
  refine .orElse (hother (Yields.boolean.keyed fun _ _ => rfl)) ?_
  refine .orElse (hother (Yields.boolean.keyed fun _ _ => rfl)) (hother ?_)
  refine (Yields.keyword _).bind fun _ _ => ?_
  refine Yields.identifier.spaced.bind fun _ _ => ?_
  exact Yields.animationModifier.items.bind fun _ _ => .pure rfl

theorem Marks.keyword (w : String) :
    Marks source (keyword w) fun place _ => TextAt source place w.toList :=
  (Copies.keyword w).marks (.keyword w)

/-- A word, a string and attributes. -/
theorem Marks.described {w : String} {make : String → List (Located Attribute) → Node}
    (hmake : ∀ place s attributes,
      (make s attributes).sites place = [⟨place, w, locatedId attributes⟩]) :
    Marks source (do
      Rule.keyword w
      let s ← Rule.cut (Rule.spaced Rule.stringLiteral)
      let attributes ← Rule.items Rule.agentAttribute
      Pure.pure (make s attributes)) (Node.Sited source) := by
  refine (Marks.keyword w).bind fun place _ hword => ?_
  refine Yields.stringLiteral.spaced.cut.bind fun s _ => ?_
  refine Marks.agentAttribute.items.bind fun attributes hnames => .pure ?_
  unfold Node.Sited
  rw [hmake]
  exact isIn_locatedId hword hnames

variable {contents agents mixed statements : Rule (List (Located Node))}

theorem Marks.buttonAgent (hs : Yields source contents fun _ => True) :
    Marks source (buttonAgent contents) (Node.Sited source) := by
  refine (Marks.keyword _).bind fun place _ hword => ?_
  refine Yields.stringLiteral.spaced.cut.bind fun s _ => ?_
  refine Marks.agentAttribute.items.bind fun attributes hnames => ?_
  refine Yields.bind (Yields.optional (Q := fun _ => True) ?_) fun handlers _ =>
    .pure (isIn_locatedId hword hnames)
  refine (Yields.word _).bind fun _ _ => Yields.cut ?_
  have hhandler : Yields source (Rule.handler contents) fun _ => True :=
    Yields.gesture.located.bind fun _ _ => hs.block.cut.bind fun _ _ => .pure trivial
  refine hhandler.spaced.many.bind fun _ _ => ?_
  exact (Yields.word _).inContext.bind fun _ _ => .pure trivial

theorem Marks.choiceAgent (hexpr : Yields source (Rule.expression room) fun _ => True)
    (h : Yields source contents (Node.AllSited source)) :
    Marks source (choiceAgent room contents) (Node.Sited source) := by
  refine Marks.bind (Yields.keyword _).marks fun place _ _ => ?_
  refine hexpr.spaced.cut.bind fun _ _ => ?_
  refine (Yields.word _).cut.bind fun _ _ => ?_
  refine h.bind fun items hitems => ?_
  refine (Yields.optional ((Yields.word _).bind fun _ _ => h)).bind fun elseItems helse => ?_
  refine (Yields.word _).inContext.cut.bind fun _ _ => .pure ?_
  have hall : Node.AllSited source (elseItems.getD []) := by
    cases elseItems with
    | none => exact fun _ hi => nomatch hi
    | some elseItems => exact helse elseItems rfl
  exact List.forall_mem_append.mpr ⟨Node.allSited_iff.mp hitems, Node.allSited_iff.mp hall⟩

theorem Marks.forAgent (hexpr : Yields source (Rule.expression room) fun _ => True)
    (h : Yields source contents (Node.AllSited source)) :
    Marks source (forAgent room contents) (Node.Sited source) := by
  refine Marks.bind (Yields.keyword _).marks fun place _ _ => ?_
  refine Yields.bind (Q := fun _ => True) (Yields.cut ?_) fun _ _ => ?_
  · refine Yields.variableName.spaced.bind fun _ _ => ?_
    refine (Yields.word _).bind fun _ _ => ?_
    exact hexpr.spaced.bind fun _ _ => .pure trivial
  · exact h.block.cut.bind fun _ hitems => .pure (Node.allSited_iff.mp hitems)

theorem Marks.waitAgent (h : Yields source contents (Node.AllSited source)) :
    Marks source (waitAgent contents) (Node.Sited source) := by
  refine Marks.bind (Yields.keyword _).marks fun place _ _ => ?_
  refine Yields.duration.spaced.cut.bind fun delay _ => ?_
  exact h.block.cut.bind fun _ hitems => .pure (Node.allSited_iff.mp hitems)

theorem Marks.timerAgent (hs : Yields source contents fun _ => True) :
    Marks source (timerAgent contents) (Node.Sited source) := by
  refine Marks.bind Yields.timerHead.marks fun place _ _ => ?_
  exact hs.block.cut.bind fun _ _ => .pure fun _ hsite => nomatch hsite

theorem Marks.agentOver (hexpr : Yields source (Rule.expression room) fun _ => True)
    (ha : Yields source agents (Node.AllSited source))
    (hm : Yields source mixed (Node.AllSited source))
    (hs : Yields source statements fun _ => True) :
    Marks source (agentOver room agents mixed statements) (Node.Sited source) :=
  .orElse (.described fun _ _ _ => rfl) <| .orElse (.buttonAgent hs) <|
  .orElse (.described fun _ _ _ => rfl) <| .orElse (.described fun _ _ _ => rfl) <|
  .orElse (.choiceAgent hexpr ha) <| .orElse (.forAgent hexpr ha) <|
  .orElse (.waitAgent hm) (.timerAgent hs)

/-- A statement has no sites. -/
theorem Marks.asNode {p : Rule Command} (h : Yields source p fun _ => True) :
    Marks source (asNode p) (Node.Sited source) :=
  Marks.bind h.marks fun _ _ _ => .pure fun _ hsite => nomatch hsite

theorem Marks.nodes {p : Rule Node} (h : Marks source p (Node.Sited source)) :
    Yields source (Rule.items p) (Node.AllSited source) :=
  h.items

variable (h : YieldsNumbers source fun _ => True)

include h

/-- The induction is on the room: a block has less of it than the agent around it. -/
theorem Marks.agent (room : Nat) (hroom : room ≤ maxNesting - 1) :
    Marks source (agent room) (Node.Sited source) := by
  induction room with
  | zero => exact .agentOver (h.expression 0 hroom).any .noRoom .noRoom .noRoom
  | succ room ih =>
    have hle := Nat.le_of_succ_le hroom
    have hstatement : Marks source (Rule.asNode (Rule.command room)) (Node.Sited source) :=
      .asNode (Yields.command h room hle).any
    exact .agentOver (h.expression (room + 1) hroom).any (ih hle).nodes
      ((ih hle).orElse hstatement).nodes hstatement.nodes.any

theorem Marks.page (room : Nat) (hroom : room ≤ maxNesting - 1) :
    Marks source (page room) (Node.Sited source) := by
  refine Marks.bind (Yields.keyword _).marks fun place _ _ => ?_
  refine Yields.integer.spaced.cut.bind fun _ _ => ?_
  refine Yields.bind (Q := Node.AllSited source)
    (Yields.cut (Yields.block (.nested (.inr rfl) fun r hr => ?_))) fun _ hitems =>
      .pure (Node.allSited_iff.mp hitems)
  have hr : r ≤ maxNesting - 1 := by omega
  have hadvance : Yields source autoAdvance fun node => ∀ place, node.Sited source place :=
    Yields.duration.keyed fun _ _ _ _ hsite => nomatch hsite
  have hstatement : Marks source (Rule.asNode (Rule.command r)) (Node.Sited source) :=
    .asNode (Yields.command h r hr).any
  have hitem := (Marks.agent h r hr).orElse hstatement
  exact ((hadvance.marks.mono fun place _ hall => hall place).orElse hitem).nodes

theorem Marks.story : Marks source story fun _ tree => ∀ s ∈ tree.sites, s.IsIn source := by
  refine Marks.bind (Yields.word _).marks fun _ _ _ => ?_
  refine Yields.stringLiteral.spaced.cut.bind fun _ _ => ?_
  refine Yields.bind (Q := Node.AllSited source)
    (Yields.cut (Yields.block (.nested (.inr rfl) fun r hr => ?_))) fun _ hitems =>
      .pure (Node.allSited_iff.mp hitems)
  have hr : r ≤ maxNesting - 1 := by omega
  have hstatement : Marks source (Rule.asNode (Rule.command r)) (Node.Sited source) :=
    .asNode (Yields.command h r hr).any
  exact ((Marks.page h r hr).orElse hstatement).nodes

theorem Marks.script : Marks source script fun _ tree => ∀ s ∈ tree.sites, s.IsIn source := by
  refine (Marks.story h).bind fun _ _ htree => ?_
  exact (Yields.inContext (Yields.spaced .endOfText)).bind fun _ _ => .pure htree

end Agents

end Rule

/-- The sites of the tree of a script come one after the other in its text, and at each of them
stand the words that the site tells. -/
theorem Tree.sites_of_read {source : String} {tree : Tree} (h : Tree.read source = .ok tree) :
    (tree.sites.map (·.position)).Pairwise (· ≤ ·) ∧ ∀ s ∈ tree.sites, s.IsIn source := by
  have hnumbers : Rule.YieldsNumbers source fun _ => True :=
    .of_number (fun _ _ => trivial) Rule.Yields.anyNumber
  refine ⟨(sorted_of_read h).sublist (Node.sublist_allSites tree.items), ?_⟩
  have hscript := Rule.Marks.script hnumbers (.ofText source) (.ofText source)
  unfold Tree.read at h
  cases hout : Rule.script (.ofText source) with
  | ok read rest =>
    rw [hout] at h hscript
    cases h
    exact hscript.2
  | refuse error => rw [hout] at h; exact nomatch h
  | abort error => rw [hout] at h; exact nomatch h

end Storybook.Script
