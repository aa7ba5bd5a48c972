/-
# `Storybook.Proofs.Script.Numbers` — the numbers of a story are written in its script

A number of a script is the double nearest to some decimal that is written in it, or what minus
signs in front make of that double.  A decimal of more than 308 digits may lie above all doubles,
and its nearest double is then an infinity; no rule of the grammar refuses it.  So a story is
finite, and goes through JSON as it is, exactly if the rule for numbers reads no such decimal; in
comments, strings and names they do no harm.

| | |
| :-- | :-- |
| a rule makes a number | `Rule.Yields.number` |
| minus keeps it finite, or not | `ReadAs.isFinite_eq` |
| the numbers of the tree are read from the script, and decide whether the story is finite | `compile_restores` |
-/
import Mathlib.Data.List.Infix
import Storybook.Proofs.Number.Finite
import Storybook.Proofs.Number.Rounding
import Storybook.Proofs.Script.TreeNumbers

namespace Storybook.Script

open Number (Decimal digitsValue takeDigits)

/-! ## The decimals of a text -/

/-- The digits after a point at the front of a text. -/
def fraction : List Char → List Char
  | '.' :: rest => (takeDigits rest).1
  | _ => []

/-- The decimal at the front of a text. -/
def decimal? (cs : List Char) : Option Decimal :=
  match takeDigits cs with
  | ([], _) => none
  | (whole, rest) =>
    some ⟨digitsValue (whole ++ fraction rest), -((fraction rest).length : Int)⟩

/-- The decimals that are written anywhere in a text. -/
def decimals (cs : List Char) : List Decimal := cs.tails.filterMap decimal?

theorem mem_decimals {cs input : List Char} {d : Decimal} (h : decimal? input = some d)
    (hsuffix : input <:+ cs) : d ∈ decimals cs :=
  List.mem_filterMap.mpr ⟨input, (List.mem_tails _ _).mpr hsuffix, h⟩

namespace Rule

theorem digits_takeDigits (cs : List Char) :
    (∀ c ∈ (takeDigits cs).1, c.isDigit = true) ∧
      (takeDigits cs).2.head?.any Char.isDigit = false ∧
      (takeDigits cs).1 ++ (takeDigits cs).2 = cs := by
  refine ⟨List.all_eq_true.mp List.all_takeWhile, ?_, List.takeWhile_append_dropWhile⟩
  have h : (cs.dropWhile Char.isDigit ++ []).head?.any Char.isDigit = false :=
    head?_dropWhile_append cs rfl
  rw [List.append_nil] at h
  exact h

/-- The rule for the digits after a point. -/
theorem reads_fraction (cs : List Char) : ∃ (read : Option (List Char)) (rest : List Char),
    Reads (optional (do text "."; digits)) cs read rest ∧ read.getD [] = fraction cs := by
  by_cases hpoint : ['.'] <+: cs
  · obtain ⟨cs, rfl⟩ := hpoint
    obtain ⟨hdigit, hrest, happend⟩ := digits_takeDigits cs
    show ∃ read : Option (List Char), ∃ rest, Reads _ ('.' :: cs) read rest ∧
      read.getD [] = (takeDigits cs).1
    cases hread : (takeDigits cs).1 with
    | nil =>
      refine ⟨none, '.' :: cs, .optional_none ((Reads.text "." cs).bind_refuses ?_), rfl⟩
      rw [hread, List.nil_append] at happend
      rw [← happend]
      exact Refuses.someChars hrest
    | cons c read =>
      refine ⟨some (c :: read), (takeDigits cs).2,
        .optional_some ((Reads.text "." cs).bind ?_), rfl⟩
      rw [hread] at hdigit happend
      conv => arg 2; rw [← happend]
      exact Reads.digits (List.cons_ne_nil _ _) hdigit hrest
  · refine ⟨none, cs, .optional_none (.bind (.text hpoint)), ?_⟩
    unfold fraction
    split
    · exact absurd ⟨_, rfl⟩ hpoint
    · rfl

/-- A number is the double nearest to the decimal at the front of the text. -/
theorem reads_number {cs : List Char} {d : Decimal} (h : decimal? cs = some d) :
    ∃ rest, Reads number cs d.toFloat rest := by
  obtain ⟨hdigit, hrest, happend⟩ := digits_takeDigits cs
  obtain ⟨read, rest, hread, hfraction⟩ := reads_fraction (takeDigits cs).2
  unfold decimal? at h
  split at h
  · exact nomatch h
  · next whole others hwhole htaken =>
    rw [htaken] at hdigit hrest happend hread hfraction
    cases h
    refine ⟨rest, Reads.inContext ?_⟩
    conv => arg 2; rw [← happend]
    refine (Reads.digits hwhole hdigit hrest).bind (hread.bind ?_)
    dsimp only
    rw [hfraction]
    exact .pure _ _

theorem refuses_number {cs : List Char} (h : decimal? cs = none) : Refuses number cs := by
  obtain ⟨hdigit, hrest, happend⟩ := digits_takeDigits cs
  unfold decimal? at h
  split at h
  · next htaken =>
    rw [htaken] at hrest happend
    conv => arg 2; rw [← happend]
    exact Refuses.number hrest
  · exact nomatch h

/-- The numbers of a script are written in it. -/
theorem Yields.number (source : String) :
    Yields source number fun x => ∃ d ∈ decimals source.toList, d.toFloat = x := by
  intro c hc
  have h := Yields.anyNumber c hc
  cases hd : decimal? c.rest with
  | none =>
    obtain ⟨error, herror⟩ := refuses_number hd c.toPlace
    have herror : Rule.number c = .refuse error := herror
    rw [herror] at h ⊢
    exact h
  | some d =>
    obtain ⟨rest, hreads⟩ := reads_number hd
    obtain ⟨place, hok⟩ := hreads c.toPlace
    have hok : Rule.number c = .ok d.toFloat (.withRest place rest) := hok
    rw [hok] at h ⊢
    exact ⟨h.1, d, mem_decimals hd hc.suffix, rfl⟩

end Rule

/-! ## Finite stories -/

/-- Whether a number is the double nearest to a decimal, with some minus signs in front of it. -/
inductive ReadAs (d : Decimal) : Float → Prop
  | plain : ReadAs d (Float.ofScientific d.digits (decide (d.exponent < 0)) d.exponent.natAbs)
  | minus {x : Float} : ReadAs d x → ReadAs d (-x)

theorem ReadAs.toFloat (d : Decimal) : ReadAs d d.toFloat :=
  d.toFloat_eq_ofScientific ▸ .plain

theorem ReadAs.isFinite_eq {d : Decimal} {x : Float} (h : ReadAs d x) :
    x.isFinite = d.toFloat.isFinite := by
  induction h with
  | plain => rw [Decimal.toFloat_eq_ofScientific]
  | minus _ ih => rw [Number.isFinite_neg, ih]

/-- The numbers that the grammar reads come from decimals of the script; minus signs in front of
them change nothing about which are finite.  The story is finite if and only if all of them are;
then no number becomes a null in JSON, and the story is read back as it was. -/
theorem compile_restores {ι : Type} [IdSource ι] {ids ids' : ι} {source : String} {story : Story}
    (h : compile ids source = .ok (story, ids')) :
    ∃ tree, Tree.read source = .ok tree ∧
      (∀ x ∈ tree.numbers, ∃ d ∈ decimals source.toList,
        ReadAs d x ∧ x.isFinite = d.toFloat.isFinite) ∧
      (story.isFinite = true ↔ ∀ x ∈ tree.numbers, x.isFinite = true) ∧
      story.toJson.hasNull = !story.isFinite ∧
      (story.isFinite = true → Story.ofJson? story.toJson = some story) := by
  obtain ⟨tree, hread, hassemble⟩ := compile_eq_ok_iff.mp h
  have hnumber : Rule.Yields source Rule.number fun x =>
      ∃ d ∈ decimals source.toList, ReadAs d x :=
    (Rule.Yields.number source).mono fun x ⟨d, hd, hx⟩ => ⟨d, hd, hx ▸ .toFloat d⟩
  have hwritten : tree.Written (fun x => ∃ d ∈ decimals source.toList, ReadAs d x)
      (Position.IsOf source) :=
    Tree.written_of_read (fun x ⟨d, hd, hx⟩ => ⟨d, hd, hx.minus⟩) hnumber hread
  have hdecides := Assembly.tree_decides hwritten ids
  rw [hassemble] at hdecides
  obtain ⟨hnone, hstory⟩ := hdecides
  refine ⟨tree, hread, fun x hx => ?_, ?_, story.hasNull_toJson,
    fun hfinite => (Story.restores hfinite).read_write⟩
  · obtain ⟨d, hd, hreadAs⟩ := hwritten.numbers x hx
    exact ⟨d, hd, hreadAs, hreadAs.isFinite_eq⟩
  · rw [← story.isFinite_anonymous, hstory]
    exact Tree.isFinite_toStory_iff hwritten hnone

/-- A script with numbers in an expression and in a place.  What is above all doubles stands in a
comment. -/
def tideText : List Char :=
  "// ".toList ++ (List.replicate 310 '9' ++
    ("\nfable \"Tide\" do init level to -(2.5 + 3) " ++
      "page 1 do text \"High\" at [-1.5, 20] end end").toList)

theorem compile_restores_tide : ∃ story ids' tree,
    compile (⟨0⟩ : IdCounter) (String.ofList tideText) = .ok (story, ids') ∧
      Tree.read (String.ofList tideText) = .ok tree ∧
        tree.numbers = [2.5, 3.0, -1.5, 20.0] ∧ story.isFinite = true ∧
          story.toJson.hasNull = false ∧ Story.ofJson? story.toJson = some story := by
  have hrun : (Tree.read (String.ofList tideText)).toOption.map (fun tree =>
      (tree.numbers, (tree.assemble (⟨0⟩ : IdCounter)).toOption.map fun _ => ())) =
        some ([2.5, 3.0, -1.5, 20.0], some ()) := by
    rewrite [Tree.read, Cursor.ofText_ofList]
    decide +kernel
  obtain ⟨tree, hread, hseen⟩ := exists_ok_of_map hrun
  obtain ⟨hnumbers, htitle⟩ := Prod.mk.inj hseen
  obtain ⟨⟨story, ids'⟩, hassemble, -⟩ := exists_ok_of_map htitle
  have hcompile := compile_eq_ok_iff.mpr ⟨tree, hread, hassemble⟩
  obtain ⟨tree', hread', -, hiff, hnull, hrestores⟩ := compile_restores hcompile
  obtain rfl : tree = tree' := Except.ok.inj (hread.symm.trans hread')
  have hfinite : story.isFinite = true := by
    rw [hiff, hnumbers]
    decide +kernel
  rw [hfinite] at hnull
  exact ⟨story, ids', tree, hcompile, hread, hnumbers, hfinite, hnull, hrestores hfinite⟩

/-- A script with a decimal above all doubles. -/
def overflowScript : String :=
  String.ofList ("fable \"Overflow\" do page 1 do text \"t\" at [".toList ++
    (List.replicate 310 '9' ++ ", 0] end end".toList))

theorem ofText_overflowScript : Cursor.ofText overflowScript = .withRest ⟨⟨1, 1⟩, 0⟩
    ("fable \"Overflow\" do page 1 do text \"t\" at [".toList ++
      (List.replicate 310 '9' ++ ", 0] end end".toList)) :=
  Cursor.ofText_ofList _

/-- The script is accepted all the same, and the JSON of its story is no story. -/
theorem compile_overflow : ∃ story ids',
    compile (⟨0⟩ : IdCounter) overflowScript = .ok (story, ids') ∧ story.isFinite = false ∧
      story.toJson.hasNull = true ∧ Story.ofJson? story.toJson = none := by
  have hrun : (compile (⟨0⟩ : IdCounter) overflowScript).toOption.map (fun result =>
      (result.1.isFinite, (Story.ofJson? result.1.toJson).isNone)) = some (false, true) := by
    rewrite [compile, Tree.read, ofText_overflowScript]
    decide +kernel
  obtain ⟨story, ids', hcompile, hseen⟩ := exists_compile_of_map
    (fun story => (story.isFinite, (Story.ofJson? story.toJson).isNone)) hrun
  obtain ⟨hfinite, hnone⟩ := Prod.mk.inj hseen
  refine ⟨story, ids', hcompile, hfinite, ?_, Option.isNone_iff_eq_none.mp hnone⟩
  rw [Story.hasNull_toJson, hfinite]
  rfl

end Storybook.Script
