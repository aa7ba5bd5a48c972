/-
# `Storybook.Proofs.Script.Word` — how the words of a script are read

The texts of names, numbers, truth values and strings, and that their rules read them.  A
word has to be *parted* from what follows: by the end of the text, or by a character that can
neither stand in a name nor go on a number.

| word | text | refused elsewhere |
| :-- | :-- | :-- |
| keyword `w` | `w` | before any other run of name characters |
| number | digits, or digits `.` digits | before all but a digit |
| string | its characters in quotes | before all but a quote |
| variable | a name that is not reserved | |
-/
import Storybook.Proofs.Script.Reading
import Storybook.Script.Literal

namespace Storybook.Script

/-- Whether a text goes on neither a name nor a number. -/
def Parted (rest : List Char) : Prop :=
  ∀ c ∈ rest.head?, Text.isNameChar c = false ∧ c ≠ '.'

theorem parted_nil : Parted [] := fun _ h => nomatch h

theorem parted_cons {c : Char} {rest : List Char} (hc : Text.isNameChar c = false)
    (hd : c ≠ '.') : Parted (c :: rest) := by
  intro d h
  cases Option.some.inj h
  exact ⟨hc, hd⟩

theorem Parted.of_blanks {blanks rest : List Char} (hb : ∀ c ∈ blanks, isSpace c = true)
    (hr : blanks = [] → Parted rest) : Parted (blanks ++ rest) := by
  cases blanks with
  | nil => exact hr rfl
  | cons c blanks =>
    have hc := hb c (List.mem_cons_self ..)
    simp only [isSpace, Bool.or_eq_true, beq_iff_eq] at hc
    obtain ((rfl | rfl) | rfl) | rfl := hc <;> exact parted_cons (by rfl) (by decide)

theorem toNat_of_isDigit {c : Char} (h : c.isDigit = true) : 48 ≤ c.toNat ∧ c.toNat ≤ 57 := by
  simp only [Char.isDigit, Bool.and_eq_true, decide_eq_true_eq, ge_iff_le,
    UInt32.le_iff_toNat_le] at h
  exact h

/-- A digit may stand in a name. -/
theorem isNameChar_of_isDigit {c : Char} (h : c.isDigit = true) : Text.isNameChar c = true := by
  have hn := toNat_of_isDigit h
  have hnum : Text.isNumeral c = true := by
    unfold Text.isNumeral Text.numeralRanges
    rw [Text.inRanges, if_neg (by omega), if_pos hn.2]
  simp [Text.isNameChar, hnum]

/-- A digit does not begin a name. -/
theorem not_isDigit_of_isNameStart {c : Char} (h : Text.isNameStart c = true) :
    c.isDigit = false := by
  cases hd : c.isDigit with
  | false => rfl
  | true =>
    have hn := toNat_of_isDigit hd
    have hl : Text.isLetter c = false := by
      unfold Text.isLetter Text.letterRanges
      rw [Text.inRanges, if_pos (by omega)]
    have hu : c ≠ '_' := by rintro rfl; exact absurd hd (by decide)
    simp [Text.isNameStart, hl, hu] at h

/-- What is parted off begins with no character of a narrower kind either. -/
theorem Parted.head {rest : List Char} (h : Parted rest) {test : Char → Bool}
    (ht : ∀ c, test c = true → Text.isNameChar c = true) : rest.head?.any test = false := by
  cases rest with
  | nil => rfl
  | cons c rest =>
    show test c = false
    cases hc : test c with
    | false => rfl
    | true => exact absurd (ht c hc) (by rw [(h c rfl).1]; simp)

theorem Parted.name {rest : List Char} (h : Parted rest) :
    rest.head?.any Text.isNameChar = false :=
  h.head fun _ hc => hc

theorem Parted.digit {rest : List Char} (h : Parted rest) :
    rest.head?.any Char.isDigit = false :=
  h.head fun _ => isNameChar_of_isDigit

namespace Rule

variable {input rest : List Char}

/-! ## Given words and marks -/

theorem Reads.token (expected : String) (rest : List Char) :
    Reads (token expected) (expected.toList ++ rest) () rest :=
  (Reads.text expected rest).named

theorem Refuses.token {expected : String} (h : ¬ expected.toList <+: input) :
    Refuses (token expected) input :=
  (Refuses.text h).named

theorem Reads.keyword (w : String) (h : Parted rest) :
    Reads (keyword w) (w.toList ++ rest) () rest :=
  (Reads.token w rest).unfollowed h.name

theorem isNameChar_nil : ∀ c ∈ ([] : List Char), Text.isNameChar c = true := fun _ h => nomatch h

/-- Before another run of name characters a keyword is refused: either it does not stand
there, or a name character follows it. -/
theorem Refuses.keyword {w : String} {run : List Char}
    (hw : w.toList.all Text.isNameChar = true)
    (hrun : ∀ c ∈ run, Text.isNameChar c = true) (hne : run ≠ w.toList)
    (hrest : rest.head?.any Text.isNameChar = false) :
    Refuses (keyword w) (run ++ rest) := by
  by_cases hp : w.toList <+: run
  · obtain ⟨more, rfl⟩ := hp
    rw [List.append_assoc]
    refine (Reads.token w _).unfollowed_refuses ?_
    cases more with
    | nil => exact absurd (List.append_nil _) hne
    | cons c more => exact hrun c (by simp)
  · refine Refuses.unfollowed (Refuses.token ?_)
    rintro ⟨more, h⟩
    refine hp ⟨more.takeWhile Text.isNameChar, ?_⟩
    rw [← List.takeWhile_append_of_pos (List.all_eq_true.mp hw), h,
      takeWhile_append_of_head hrun hrest]

/-- A mark with blanks before and after it. -/
theorem Reads.symbol_after {mark : String} {before blanks : List Char}
    (hbefore : ∀ c ∈ before, isSpace c = true) (hm : Settled (mark.toList ++ (blanks ++ rest)))
    (hb : ∀ c ∈ blanks, isSpace c = true) (hr : Settled rest) :
    Reads (symbol mark) (before ++ (mark.toList ++ (blanks ++ rest))) () rest :=
  Reads.spaced_after hbefore hm (Reads.token mark _) hb hr

theorem Reads.symbol {mark : String} {blanks : List Char}
    (hm : Settled (mark.toList ++ (blanks ++ rest))) (hb : ∀ c ∈ blanks, isSpace c = true)
    (hr : Settled rest) : Reads (symbol mark) (mark.toList ++ (blanks ++ rest)) () rest := by
  rw [← List.nil_append (mark.toList ++ _)]
  exact .symbol_after isSpace_nil hm hb hr

theorem Refuses.symbol {mark : String} (hi : Settled input) (h : ¬ mark.toList <+: input) :
    Refuses (symbol mark) input :=
  Refuses.spaced hi (Refuses.token h)

/-! ## Numbers -/

theorem Refuses.number (h : input.head?.any Char.isDigit = false) : Refuses number input :=
  (Refuses.bind (Refuses.someChars h)).inContext

end Rule

/-- The digits of a number before and after the point, which is only written if there are
digits after it. -/
structure Numeral where
  whole : List Char
  fraction : List Char
  whole_ne_nil : whole ≠ []
  whole_isDigit : ∀ c ∈ whole, c.isDigit = true
  fraction_isDigit : ∀ c ∈ fraction, c.isDigit = true

namespace Numeral

def text (n : Numeral) : List Char :=
  match n.fraction with
  | [] => n.whole
  | c :: fraction => n.whole ++ '.' :: c :: fraction

/-- The double nearest to the decimal that the digits stand for. -/
def value (n : Numeral) : Float :=
  Number.Decimal.toFloat
    ⟨Number.digitsValue (n.whole ++ n.fraction), -(n.fraction.length : Int)⟩

end Numeral

namespace Rule

variable {input rest : List Char}

theorem Reads.digits {read : List Char} (hne : read ≠ []) (hd : ∀ c ∈ read, c.isDigit = true)
    (hr : rest.head?.any Char.isDigit = false) : Reads digits (read ++ rest) read rest := by
  cases read with
  | nil => exact absurd rfl hne
  | cons c read => exact Reads.someChars hd hr

theorem Reads.number (n : Numeral) (hr : Parted rest) :
    Reads number (n.text ++ rest) n.value rest := by
  obtain ⟨whole, fraction, hne, hw, hf⟩ := n
  refine Reads.inContext ?_
  cases fraction with
  | nil =>
    refine (Reads.digits hne hw hr.digit).bind (.bind (.optional_none ?_) (.pure _ _))
    refine Refuses.bind (Refuses.text ?_)
    rintro ⟨more, h⟩
    cases rest with
    | nil => exact nomatch h
    | cons c rest =>
      have hc : '.' = c := (List.cons.inj h).1
      exact (hr c rfl).2 hc.symm
  | cons c fraction =>
    show Reads _ ((whole ++ '.' :: c :: fraction) ++ rest) _ _
    rw [List.append_assoc]
    exact (Reads.digits hne hw rfl).bind
      (.bind (.optional_some (.bind (.text "." _) (Reads.digits (by simp) hf hr.digit)))
        (.pure _ _))

/-! ## Truth values -/

theorem Reads.boolean (b : Bool) (hr : Parted rest) :
    Reads boolean ((toString b).toList ++ rest) b rest := by
  refine Reads.inContext ?_
  cases b with
  | true => exact .orElse_left (.bind (.keyword "true" hr) (.pure _ _))
  | false =>
    have hname : "false".toList.all Text.isNameChar = true := by decide +kernel
    have htrue : Refuses (Rule.keyword "true") ("false".toList ++ rest) :=
      .keyword (by decide +kernel) (List.all_eq_true.mp hname) (by decide) hr.name
    exact .orElse_right htrue.bind (.bind (.keyword "false" hr) (.pure _ _))

/-- Before a run of name characters that is no truth value there is none. -/
theorem Refuses.boolean {run : List Char} (hrun : ∀ c ∈ run, Text.isNameChar c = true)
    (ht : run ≠ "true".toList) (hf : run ≠ "false".toList)
    (hrest : rest.head?.any Text.isNameChar = false) : Refuses boolean (run ++ rest) :=
  (Refuses.orElse (.bind (.keyword (by decide +kernel) hrun ht hrest))
    (.bind (.keyword (by decide +kernel) hrun hf hrest))).inContext

end Rule

/-! ## Strings -/

/-- The characters of a string with a backslash before quotes and backslashes. -/
def escaped : List Char → List Char
  | [] => []
  | c :: rest => if c = '"' ∨ c = '\\' then '\\' :: c :: escaped rest else c :: escaped rest

def quoted (value : String) : List Char := '"' :: (escaped value.toList ++ ['"'])

theorem stringBody_escaped (body rest : List Char) :
    stringBody (escaped body ++ '"' :: rest) = some (body, rest) := by
  induction body with
  | nil => simp [escaped, stringBody]
  | cons c body ih =>
    by_cases hc : c = '"' ∨ c = '\\'
    · have hn : c ≠ 'n' ∧ c ≠ 't' := by rcases hc with rfl | rfl <;> decide
      rw [escaped, if_pos hc]
      simp [stringBody, ih, hn.1, hn.2]
    · obtain ⟨hq, hs⟩ := not_or.mp hc
      rw [escaped, if_neg hc, List.cons_append, stringBody, ih]
      · rfl
      · exact fun h => hq h
      · exact fun h _ => hs h
      · exact fun _ _ h => absurd h hs

namespace Rule

variable {input rest : List Char}

theorem Reads.stringLiteral (value : String) (rest : List Char) :
    Reads stringLiteral (quoted value ++ rest) value rest := by
  intro place
  refine ⟨place.through (quoted value), ?_⟩
  have hbody : stringBody (escaped value.toList ++ ['"'] ++ rest) =
      some (value.toList, rest) := by
    rw [List.append_assoc]
    exact stringBody_escaped _ _
  have hlen : (quoted value ++ rest).length - rest.length = (quoted value).length := by
    rw [List.length_append]
    omega
  have hadv := Cursor.advance_append (quoted value) rest place
  have hrest : (Cursor.withRest place (quoted value ++ rest)).rest =
      '"' :: (escaped value.toList ++ ['"'] ++ rest) := rfl
  unfold Rule.stringLiteral
  simp only [hrest, hbody, String.ofList_toList]
  rw [← hadv, ← hlen]
  rfl

theorem Refuses.stringLiteral (h : input.head? ≠ some '"') : Refuses stringLiteral input := by
  intro place
  refine ⟨⟨.withRest place input, .expected "string"⟩, ?_⟩
  unfold Rule.stringLiteral
  cases input with
  | nil => rfl
  | cons c input =>
    have hc : c ≠ '"' := fun e => h (by rw [e]; rfl)
    simp [Cursor.withRest, hc]

end Rule

/-! ## Variables -/

/-- Whether a name may name a variable. -/
def isVariableName (name : String) : Bool :=
  Text.isName name.toList && !reservedWords.contains name

/-- The name of a variable. -/
structure Variable where
  name : String
  isVariable : isVariableName name = true

namespace Variable

theorem exists_toList (x : Variable) : ∃ c others, x.name.toList = c :: others ∧
    Text.isNameStart c = true ∧ ∀ d ∈ c :: others, Text.isNameChar d = true := by
  obtain ⟨name, h⟩ := x
  obtain ⟨hname, -⟩ := Bool.and_eq_true_iff.mp h
  show ∃ c others, name.toList = c :: others ∧ _
  cases hl : name.toList with
  | nil => rw [hl] at hname; exact nomatch hname
  | cons c others =>
    rw [hl] at hname
    obtain ⟨hc, hall⟩ := Bool.and_eq_true_iff.mp hname
    refine ⟨c, others, rfl, hc, ?_⟩
    intro d hd
    rcases List.mem_cons.mp hd with rfl | hd
    · exact Text.isNameChar_of_isNameStart hc
    · exact List.all_eq_true.mp hall d hd

theorem isNameChar (x : Variable) : ∀ d ∈ x.name.toList, Text.isNameChar d = true := by
  obtain ⟨c, others, h, -, hall⟩ := x.exists_toList
  rw [h]
  exact hall

/-- A variable is none of the reserved words. -/
theorem toList_ne (x : Variable) {w : String} (hw : w ∈ reservedWords) :
    x.name.toList ≠ w.toList := by
  intro h
  obtain ⟨-, hfree⟩ := Bool.and_eq_true_iff.mp x.isVariable
  rw [String.toList_inj.mp h, List.contains_iff_mem.mpr hw] at hfree
  exact nomatch hfree

end Variable

namespace Rule

variable {rest : List Char}

/-- A name is read in two runs: the characters up to the first one that begins no name, and
those after it. -/
theorem Reads.identifier {name : String} (h : Text.isName name.toList = true) (hr : Parted rest) :
    Reads identifier (name.toList ++ rest) name rest := by
  cases hl : name.toList with
  | nil => rw [hl] at h; exact nomatch h
  | cons c others =>
    rw [hl] at h
    obtain ⟨hc, hall⟩ := Bool.and_eq_true_iff.mp h
    have hsplit := List.takeWhile_append_dropWhile (p := Text.isNameStart) (l := others)
    have hstart : ∀ d ∈ c :: others.takeWhile Text.isNameStart, Text.isNameStart d = true := by
      intro d hd
      rcases List.mem_cons.mp hd with rfl | hd
      · exact hc
      · exact List.all_eq_true.mp List.all_takeWhile d hd
    have hlater : ∀ d ∈ others.dropWhile Text.isNameStart, Text.isNameChar d = true :=
      fun d hd => List.all_eq_true.mp hall d (List.dropWhile_subset _ hd)
    have hbreak := head?_dropWhile_append others (hr.head fun _ => Text.isNameChar_of_isNameStart)
    have hname : c :: others.takeWhile Text.isNameStart ++ others.dropWhile Text.isNameStart =
        name.toList := by rw [List.cons_append, hsplit, hl]
    rw [← hl, ← hname, List.append_assoc]
    refine Reads.inContext ((Reads.someChars hstart hbreak).bind
      ((Reads.charsWhile hlater hr.name).bind ?_))
    rw [hname, String.ofList_toList]
    exact .pure _ _

theorem Reads.variableName (x : Variable) (hr : Parted rest) :
    Reads variableName (x.name.toList ++ rest) x.name rest := by
  obtain ⟨hname, hfree⟩ := Bool.and_eq_true_iff.mp x.isVariable
  exact (Reads.identifier hname hr).checked hfree

end Rule

end Storybook.Script
