/-
# `Storybook.Proofs.Script.Splitting` — the one normal list of parts of a text

Parts are rendered by writing their literal runs as they are and their placeholders as names in
braces.  Many lists of parts are rendered as the same text; a *normal* one is as coarse as it can
be, and shows every placeholder that there is:

| in a normal list | |
| :-- | :-- |
| literal runs | are not empty, and no two of them are neighbours |
| names | are what the rule of names reads to the end |
| names in braces | do not occur in literal runs |

Every text is rendered from one normal list only, which is what splitting gives:

    splitParts text = parts ↔ rendered parts = text ∧ Normal parts

A scan carries the literal characters in front of it.  Its invariant is that no placeholder begins
among them, whatever stands behind (`IsLiteral`).
-/
import Mathlib.Data.List.Chain
import Storybook.Proofs.Script.Reserved

namespace Storybook

/-! ## Rendering -/

theorem Script.toList_braced (name : String) :
    (braced name).toList = '\x7b' :: (name.toList ++ ['\x7d']) := String.toList_ofList

namespace StringPart

/-- Whether a part is a literal run. -/
def isText : StringPart → Bool
  | text _ => true
  | placeholder _ => false

def written : StringPart → String
  | text literal => literal
  | placeholder name => Script.braced name

def rendered : List StringPart → String
  | [] => ""
  | part :: rest => part.written ++ rendered rest

theorem toList_rendered_cons (part : StringPart) (rest : List StringPart) :
    (rendered (part :: rest)).toList = part.written.toList ++ (rendered rest).toList :=
  String.toList_append

theorem toList_rendered_text (literal : String) (rest : List StringPart) :
    (rendered (text literal :: rest)).toList = literal.toList ++ (rendered rest).toList :=
  String.toList_append

theorem toList_rendered_placeholder (name : String) (rest : List StringPart) :
    (rendered (placeholder name :: rest)).toList =
      '\x7b' :: (name.toList ++ '\x7d' :: (rendered rest).toList) := by
  rw [toList_rendered_cons]
  show (Script.braced name).toList ++ _ = _
  rw [Script.toList_braced, List.cons_append, List.append_assoc]
  rfl

end StringPart

namespace Script

open StringPart (rendered toList_rendered_cons toList_rendered_text toList_rendered_placeholder)

/-! ## Normal lists -/

/-- Whether the rule of names reads a text to its end. -/
def IsIdentifier (name : String) : Prop :=
  ∃ c, Rule.identifier (.ofText name) = .ok name c ∧ c.rest = []

theorem isIdentifier_iff {name : String} :
    IsIdentifier name ↔ Text.isName name.toList = true := by
  constructor
  · rintro ⟨c, hread, -⟩
    have h := Rule.Yields.identifier (.ofText name) (Cursor.IsOf.ofText name)
    rw [hread] at h
    exact h.2
  · intro h
    obtain ⟨place, hread⟩ := Rule.Reads.identifier h parted_nil ⟨⟨1, 1⟩, 0⟩
    rw [List.append_nil] at hread
    exact ⟨_, hread, rfl⟩

/-- Whether no name in braces occurs in a text. -/
def FreeOfNames (text : List Char) : Prop :=
  ∀ name, IsIdentifier name → ¬ (braced name).toList <:+: text

/-- Whether a list of parts is as coarse as it can be and shows every placeholder. -/
structure Normal (parts : List StringPart) : Prop where
  nonempty : .text "" ∉ parts
  apart : parts.IsChain fun part next => part.isText = true → next.isText = false
  names : ∀ name, .placeholder name ∈ parts → IsIdentifier name
  literal : ∀ text, .text text ∈ parts → FreeOfNames text.toList

namespace Normal

variable {parts : List StringPart}

theorem nil : Normal [] where
  nonempty := List.not_mem_nil
  apart := .nil
  names := fun _ h => nomatch h
  literal := fun _ h => nomatch h

theorem placeholder {name : String} (hname : IsIdentifier name) (h : Normal parts) :
    Normal (.placeholder name :: parts) where
  nonempty := by
    intro hmem
    rcases List.mem_cons.mp hmem with heq | hmem
    · cases heq
    · exact h.nonempty hmem
  apart := List.isChain_cons.mpr ⟨fun _ _ htext => (nomatch htext), h.apart⟩
  names := by
    intro other hmem
    rcases List.mem_cons.mp hmem with heq | hmem
    · cases heq
      exact hname
    · exact h.names other hmem
  literal := by
    intro text hmem
    rcases List.mem_cons.mp hmem with heq | hmem
    · cases heq
    · exact h.literal text hmem

theorem text {text : String} (hne : text ≠ "") (hfree : FreeOfNames text.toList)
    (hnext : ∀ part ∈ parts.head?, part.isText = false) (h : Normal parts) :
    Normal (.text text :: parts) where
  nonempty := by
    intro hmem
    rcases List.mem_cons.mp hmem with heq | hmem
    · cases heq
      exact hne rfl
    · exact h.nonempty hmem
  apart := List.isChain_cons.mpr ⟨fun part hpart _ => hnext part hpart, h.apart⟩
  names := by
    intro other hmem
    rcases List.mem_cons.mp hmem with heq | hmem
    · cases heq
    · exact h.names other hmem
  literal := by
    intro other hmem
    rcases List.mem_cons.mp hmem with heq | hmem
    · cases heq
      exact hfree
    · exact h.literal other hmem

theorem tail {part : StringPart} (h : Normal (part :: parts)) : Normal parts where
  nonempty := fun hmem => h.nonempty (List.mem_cons_of_mem _ hmem)
  apart := (List.isChain_cons.mp h.apart).2
  names := fun name hmem => h.names name (List.mem_cons_of_mem _ hmem)
  literal := fun text hmem => h.literal text (List.mem_cons_of_mem _ hmem)

/-- What follows a literal run is a placeholder. -/
theorem isText_head? {text : String} (h : Normal (.text text :: parts)) :
    ∀ part ∈ parts.head?, part.isText = false :=
  fun part hpart => (List.isChain_cons.mp h.apart).1 part hpart rfl

end Normal

/-! ## Placeholders at the front of a text -/

theorem brace_notMem_of_isName {name : List Char} (h : Text.isName name = true) :
    '\x7b' ∉ name ∧ '\x7d' ∉ name := by
  constructor
  · intro hmem
    exact absurd (isNameChar_of_isName h _ hmem) (by decide +kernel)
  · intro hmem
    exact absurd (isNameChar_of_isName h _ hmem) (by decide +kernel)

/-- Behind an opening brace there is a placeholder if a name and a closing brace stand there. -/
theorem placeholder?_eq_some_iff {cs name rest : List Char} :
    placeholder? cs = some (name, rest) ↔
      Text.isName name = true ∧ cs = name ++ '\x7d' :: rest := by
  constructor
  · intro h
    refine ⟨isName_of_placeholder? h, ?_⟩
    unfold placeholder? at h
    split at h
    · cases h
    · next closing after hdrop =>
      dsimp only at h
      split at h
      · cases h
        have hhead := List.head?_dropWhile_not (· != '\x7d') cs
        rw [hdrop] at hhead
        have hclosing : closing = '\x7d' := by simpa using hhead
        subst hclosing
        rw [← hdrop, List.takeWhile_append_dropWhile]
      · cases h
  · rintro ⟨hname, rfl⟩
    have hpass : ∀ c ∈ name, (c != '\x7d') = true := by
      intro c hc
      refine bne_iff_ne.mpr ?_
      rintro rfl
      exact (brace_notMem_of_isName hname).2 hc
    have hdrop : (name ++ '\x7d' :: rest).dropWhile (· != '\x7d') = '\x7d' :: rest := by
      rw [List.dropWhile_append_of_pos hpass]
      rfl
    have htake : (name ++ '\x7d' :: rest).takeWhile (· != '\x7d') = name := by
      rw [List.takeWhile_append_of_pos hpass]
      exact List.append_nil name
    unfold placeholder?
    rw [hdrop, htake]
    exact if_pos hname

/-! ## Steps of a scan -/

section Steps

variable (reversed : List Char)

theorem splitFrom_nil : splitFrom reversed [] = literalPart reversed := by rw [splitFrom]

/-- A placeholder ends the literal run in front of it. -/
theorem splitFrom_placeholder {rest name after : List Char}
    (h : placeholder? rest = some (name, after)) :
    splitFrom reversed ('\x7b' :: rest) =
      literalPart reversed ++ .placeholder (String.ofList name) :: splitFrom [] after := by
  rw [splitFrom, if_pos rfl]
  split
  · next heq =>
    cases h.symm.trans heq
    rfl
  · next heq => cases h.symm.trans heq

/-- Any other character goes on the literal run. -/
theorem splitFrom_char {c : Char} {rest : List Char} (h : c = '\x7b' → placeholder? rest = none) :
    splitFrom reversed (c :: rest) = splitFrom (c :: reversed) rest := by
  rw [splitFrom]
  split
  · next hc =>
    split
    · next heq => cases (h hc).symm.trans heq
    · rfl
  · rfl

end Steps

/-- Whether no placeholder begins in a text that stands before another one. -/
def IsLiteral (text rest : List Char) : Prop :=
  ∀ before after, text = before ++ '\x7b' :: after → placeholder? (after ++ rest) = none

section Literal

variable {text rest : List Char}

theorem isLiteral_nil (rest : List Char) : IsLiteral [] rest :=
  fun _ _ h => absurd h.symm (List.append_ne_nil_of_right_ne_nil _ (List.cons_ne_nil _ _))

theorem isLiteral_cons {c : Char} (hc : c = '\x7b' → placeholder? (text ++ rest) = none)
    (h : IsLiteral text rest) : IsLiteral (c :: text) rest := by
  intro before after heq
  cases before with
  | nil =>
    obtain ⟨hbrace, rfl⟩ := List.cons.inj heq
    exact hc hbrace
  | cons d before => exact h before after (List.cons.inj heq).2

theorem IsLiteral.of_cons {c : Char} (h : IsLiteral (c :: text) rest) :
    (c = '\x7b' → placeholder? (text ++ rest) = none) ∧ IsLiteral text rest := by
  constructor
  · rintro rfl
    exact h [] text rfl
  · intro before after heq
    exact h (c :: before) after (congrArg (c :: ·) heq)

/-- The step of the invariant: a character at which no placeholder begins is literal too. -/
theorem IsLiteral.concat {c : Char} (h : IsLiteral text (c :: rest))
    (hc : c = '\x7b' → placeholder? rest = none) : IsLiteral (text ++ [c]) rest := by
  induction text with
  | nil => exact isLiteral_cons hc (isLiteral_nil rest)
  | cons d text ih =>
    obtain ⟨hd, htext⟩ := h.of_cons
    show IsLiteral (d :: (text ++ [c])) rest
    refine isLiteral_cons ?_ (ih htext)
    intro hbrace
    rw [List.append_assoc]
    exact hd hbrace

/-- A name in braces would be a placeholder. -/
theorem IsLiteral.freeOfNames (h : IsLiteral text rest) : FreeOfNames text := by
  rintro name hname ⟨before, after, heq⟩
  have hnone : placeholder? ((name.toList ++ '\x7d' :: after) ++ rest) = none := by
    refine h before _ ?_
    rw [← heq, toList_braced]
    simp only [List.append_assoc, List.cons_append, List.nil_append]
  have hsome : placeholder? ((name.toList ++ '\x7d' :: after) ++ rest) =
      some (name.toList, after ++ rest) := by
    refine placeholder?_eq_some_iff.mpr ⟨isIdentifier_iff.mp hname, ?_⟩
    rw [List.append_assoc, List.cons_append]
  cases hnone.symm.trans hsome

/-- Where the end or another brace follows, a placeholder would have to end in the text itself. -/
theorem FreeOfNames.isLiteral (h : FreeOfNames text) (hrest : ∀ c ∈ rest.head?, c = '\x7b') :
    IsLiteral text rest := by
  rintro before after rfl
  cases hfound : placeholder? (after ++ rest) with
  | none => rfl
  | some found =>
    obtain ⟨name, behind⟩ := found
    obtain ⟨hname, heq⟩ := placeholder?_eq_some_iff.mp hfound
    rcases List.append_eq_append_iff.mp heq with ⟨ending, hnameEq, hrestEq⟩ | ⟨more, hafter, hmore⟩
    · -- the name goes on behind the text, and so its brace is part of the name
      exfalso
      cases ending with
      | nil =>
        rw [List.nil_append] at hrestEq
        have hbrace := hrest '\x7d' (by rw [hrestEq]; rfl)
        exact absurd hbrace (by decide)
      | cons c ending =>
        have hbrace := hrest c (by rw [hrestEq]; rfl)
        refine (brace_notMem_of_isName hname).1 ?_
        rw [hnameEq, hbrace]
        exact List.mem_append_right _ List.mem_cons_self
    · cases more with
      | nil =>
        rw [List.nil_append] at hmore
        have hbrace := hrest '\x7d' (by rw [← hmore]; rfl)
        exact absurd hbrace (by decide)
      | cons c more =>
        obtain ⟨hclosing, -⟩ := List.cons.inj hmore
        subst hclosing
        refine absurd ?_ (h (String.ofList name) (isIdentifier_iff.mpr ?_))
        · refine ⟨before, more, ?_⟩
          rw [toList_braced, String.toList_ofList, hafter]
          simp only [List.append_assoc, List.cons_append, List.nil_append]
        · rw [String.toList_ofList]
          exact hname

end Literal

/-- A scan passes over literal characters. -/
theorem splitFrom_literal {text rest : List Char} (h : IsLiteral text rest)
    (reversed : List Char) :
    splitFrom reversed (text ++ rest) = splitFrom (text.reverse ++ reversed) rest := by
  induction text generalizing reversed with
  | nil => rfl
  | cons c text ih =>
    obtain ⟨hc, htext⟩ := h.of_cons
    rw [List.cons_append, splitFrom_char reversed hc, ih htext, List.reverse_cons,
      List.append_assoc]
    rfl

/-! ## Splitting gives the normal list -/

theorem toList_rendered_append (parts more : List StringPart) :
    (rendered (parts ++ more)).toList = (rendered parts).toList ++ (rendered more).toList := by
  induction parts with
  | nil => rfl
  | cons part parts ih =>
    rw [List.cons_append, toList_rendered_cons, toList_rendered_cons, ih, List.append_assoc]

theorem toList_rendered_literalPart (reversed : List Char) :
    (rendered (literalPart reversed)).toList = reversed.reverse := by
  cases reversed with
  | nil => rfl
  | cons c reversed =>
    show (rendered [.text (String.ofList (c :: reversed).reverse)]).toList = _
    rw [toList_rendered_text, String.toList_ofList]
    exact List.append_nil _

/-- Nothing is lost. -/
theorem toList_rendered_splitFrom (reversed cs : List Char) :
    (rendered (splitFrom reversed cs)).toList = reversed.reverse ++ cs := by
  induction reversed, cs using splitFrom.induct with
  | case1 reversed => rw [splitFrom_nil, toList_rendered_literalPart, List.append_nil]
  | case2 reversed rest name after hplaceholder ih =>
    obtain ⟨-, rfl⟩ := placeholder?_eq_some_iff.mp hplaceholder
    rw [splitFrom_placeholder reversed hplaceholder, toList_rendered_append,
      toList_rendered_literalPart, toList_rendered_placeholder, String.toList_ofList, ih]
    rfl
  | case3 reversed rest hplaceholder ih =>
    rw [splitFrom_char reversed fun _ => hplaceholder, ih, List.reverse_cons, List.append_assoc]
    rfl
  | case4 reversed c rest hc ih =>
    rw [splitFrom_char reversed fun h => absurd h hc, ih, List.reverse_cons, List.append_assoc]
    rfl

theorem Normal.literalPart_append {reversed rest : List Char} {parts : List StringPart}
    (hliteral : IsLiteral reversed.reverse rest)
    (hnext : ∀ part ∈ parts.head?, part.isText = false) (h : Normal parts) :
    Normal (literalPart reversed ++ parts) := by
  cases reversed with
  | nil => exact h
  | cons c reversed =>
    refine Normal.text ?_ ?_ hnext h
    · intro hempty
      have hlist := congrArg String.toList hempty
      rw [String.toList_ofList, List.reverse_cons] at hlist
      exact List.append_ne_nil_of_right_ne_nil _ (List.cons_ne_nil c []) hlist
    · rw [String.toList_ofList]
      exact hliteral.freeOfNames

/-- The induction is along the scan, with its invariant. -/
theorem normal_splitFrom (reversed cs : List Char) (h : IsLiteral reversed.reverse cs) :
    Normal (splitFrom reversed cs) := by
  induction reversed, cs using splitFrom.induct with
  | case1 reversed =>
    rw [splitFrom_nil, ← List.append_nil (literalPart reversed)]
    refine .literalPart_append h ?_ .nil
    intro part hpart
    exact absurd hpart (Option.not_mem_none part)
  | case2 reversed rest name after hplaceholder ih =>
    rw [splitFrom_placeholder reversed hplaceholder]
    have hname : IsIdentifier (String.ofList name) := by
      rw [isIdentifier_iff, String.toList_ofList]
      exact isName_of_placeholder? hplaceholder
    refine .literalPart_append h ?_ (.placeholder hname (ih (isLiteral_nil after)))
    intro part hpart
    cases hpart
    rfl
  | case3 reversed rest hplaceholder ih =>
    rw [splitFrom_char reversed fun _ => hplaceholder]
    refine ih ?_
    rw [List.reverse_cons]
    exact h.concat fun _ => hplaceholder
  | case4 reversed c rest hc ih =>
    rw [splitFrom_char reversed fun h => absurd h hc]
    refine ih ?_
    rw [List.reverse_cons]
    exact h.concat fun h => absurd h hc

/-! ## No other list is normal -/

/-- A rendered placeholder begins with a brace. -/
theorem head?_rendered {parts : List StringPart} (h : ∀ part ∈ parts.head?, part.isText = false) :
    ∀ c ∈ (rendered parts).toList.head?, c = '\x7b' := by
  intro c hc
  cases parts with
  | nil => cases hc
  | cons part rest =>
    cases part with
    | text text => cases h (.text text) rfl
    | placeholder name =>
      rw [toList_rendered_placeholder] at hc
      cases hc
      rfl

/-- The induction is on the parts.  A literal run in front would run together with a first part
that is one too. -/
theorem splitFrom_rendered {parts : List StringPart} (h : Normal parts) (reversed : List Char)
    (hfront : reversed = [] ∨ ∀ part ∈ parts.head?, part.isText = false) :
    splitFrom reversed (rendered parts).toList = literalPart reversed ++ parts := by
  induction parts generalizing reversed with
  | nil =>
    show splitFrom reversed [] = _
    rw [splitFrom_nil, List.append_nil]
  | cons part rest ih =>
    have hrest := ih h.tail
    cases part with
    | placeholder name =>
      have hname : Text.isName name.toList = true :=
        isIdentifier_iff.mp (h.names name List.mem_cons_self)
      have hfound : placeholder? (name.toList ++ '\x7d' :: (rendered rest).toList) =
          some (name.toList, (rendered rest).toList) :=
        placeholder?_eq_some_iff.mpr ⟨hname, rfl⟩
      rw [toList_rendered_placeholder, splitFrom_placeholder reversed hfound,
        hrest [] (.inl rfl), String.ofList_toList]
      rfl
    | text text =>
      have hempty : reversed = [] := by
        rcases hfront with hempty | hnext
        · exact hempty
        · cases hnext (.text text) rfl
      subst hempty
      have hliteral : IsLiteral text.toList (rendered rest).toList :=
        (h.literal text List.mem_cons_self).isLiteral (head?_rendered h.isText_head?)
      have hrun : literalPart text.toList.reverse = [.text text] := by
        cases hreversed : text.toList.reverse with
        | nil =>
          have htext : text = "" := String.toList_inj.mp (List.reverse_eq_nil_iff.mp hreversed)
          exact absurd List.mem_cons_self (htext ▸ h.nonempty)
        | cons c reversed =>
          show [StringPart.text (String.ofList (c :: reversed).reverse)] = _
          rw [← hreversed, List.reverse_reverse, String.ofList_toList]
      rw [toList_rendered_text, splitFrom_literal hliteral, List.append_nil,
        hrest _ (.inr h.isText_head?), hrun]
      rfl

/-! ## The parts of a text -/

section Parts

variable (text : String)

theorem rendered_splitParts : rendered (splitParts text) = text :=
  String.toList_inj.mp (toList_rendered_splitFrom [] text.toList)

theorem normal_splitParts : Normal (splitParts text) :=
  normal_splitFrom [] text.toList (isLiteral_nil _)

theorem splitParts_rendered {parts : List StringPart} (h : Normal parts) :
    splitParts (rendered parts) = parts :=
  splitFrom_rendered h [] (.inl rfl)

/-- The parts of a text are the one normal list that is rendered as the text; so normal parts are
got back from their rendering. -/
theorem splitParts_eq_iff (parts : List StringPart) :
    splitParts text = parts ↔ rendered parts = text ∧ Normal parts := by
  constructor
  · rintro rfl
    exact ⟨rendered_splitParts text, normal_splitParts text⟩
  · rintro ⟨rfl, hnormal⟩
    exact splitParts_rendered hnormal

end Parts

end Script

end Storybook
