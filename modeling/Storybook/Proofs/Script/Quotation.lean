/-
# `Storybook.Proofs.Script.Quotation` — strings between their quotes

The same string can be written in several ways, character by character:

| character | as itself | behind a backslash |
| :-- | :-- | :-- |
| a quote, a backslash | | yes |
| a line feed, a tab | yes | yes, as `n` and `t` |
| any other | yes | |

`InQuotes value written` says that `written` is one of the ways to write `value`.  All of them are
read as `value`, up to the closing quote and no further.

Which quote closes a string is a question of the text alone: a quote is escaped if the run of
backslashes right before it is of odd length (`Escapes`).  The rule takes backslashes in pairs from
the left, and never looks back; that it stops at a quote exactly if there is one that is not
escaped (`isSome_stringBody_iff`) is because a pair of characters that begins with a backslash
changes no run behind it by an odd number (`escapes_pair`).
-/
import Storybook.Proofs.Script.Word

namespace Storybook.Script

/-! ## Ways to write a string -/

/-- The ways to write the characters of a string between quotes. -/
inductive InQuotes : (value written : List Char) → Prop
  | nil : InQuotes [] []
  | char {c : Char} {value written : List Char} : c ≠ '"' → c ≠ '\\' → InQuotes value written →
    InQuotes (c :: value) (c :: written)
  | quote {value written : List Char} : InQuotes value written →
    InQuotes ('"' :: value) ('\\' :: '"' :: written)
  | backslash {value written : List Char} : InQuotes value written →
    InQuotes ('\\' :: value) ('\\' :: '\\' :: written)
  | newline {value written : List Char} : InQuotes value written →
    InQuotes ('\n' :: value) ('\\' :: 'n' :: written)
  | tab {value written : List Char} : InQuotes value written →
    InQuotes ('\t' :: value) ('\\' :: 't' :: written)

/-- With backslashes only where they are needed, every string can be written. -/
theorem inQuotes_escaped (value : List Char) : InQuotes value (escaped value) := by
  induction value with
  | nil => exact .nil
  | cons c rest ih =>
    rw [escaped]
    split
    · next h =>
      rcases h with rfl | rfl
      · exact .quote ih
      · exact .backslash ih
    · next h =>
      obtain ⟨hquote, hback⟩ := not_or.mp h
      exact .char hquote hback ih

theorem stringBody_char {c : Char} (hquote : c ≠ '"') (hback : c ≠ '\\') (rest : List Char) :
    stringBody (c :: rest) = (stringBody rest).map fun (body, rest) => (c :: body, rest) := by
  rw [stringBody]
  · exact hquote
  · exact fun h _ => hback h
  · exact fun _ _ h => absurd h hback

theorem stringBody_inQuotes {value written : List Char} (h : InQuotes value written)
    (rest : List Char) : stringBody (written ++ '"' :: rest) = some (value, rest) := by
  induction h with
  | nil => rfl
  | char hquote hback _ ih =>
    rw [List.cons_append, stringBody_char hquote hback, ih]
    rfl
  | quote _ ih | backslash _ ih | newline _ ih | tab _ ih =>
    rw [List.cons_append, List.cons_append, stringBody, ih]
    rfl

/-! ## The quote that closes a string -/

/-- Whether a text escapes the character behind it: it ends with an odd number of backslashes. -/
def Escapes (before : List Char) : Prop :=
  (before.reverse.takeWhile (· == '\\')).length % 2 = 1

/-- Whether a quote in a text is not escaped. -/
def HasClosingQuote (text : List Char) : Prop :=
  ∃ before after, text = before ++ '"' :: after ∧ ¬ Escapes before

theorem escapes_cons {c : Char} (h : c ≠ '\\') (before : List Char) :
    Escapes (c :: before) ↔ Escapes before := by
  unfold Escapes
  rw [List.reverse_cons, List.takeWhile_append]
  split
  · next hall => rw [List.takeWhile_cons_of_neg (by simpa using h), List.append_nil, hall]
  · exact Iff.rfl

/-- The run at the end stays the same, or gets longer by two backslashes. -/
theorem escapes_pair (c : Char) (before : List Char) :
    Escapes ('\\' :: c :: before) ↔ Escapes before := by
  unfold Escapes
  rw [List.reverse_cons, List.reverse_cons, List.append_assoc, List.takeWhile_append]
  split
  · next hall =>
    by_cases hc : c = '\\'
    · subst hc
      rw [List.length_append, hall]
      exact iff_of_eq (congrArg (· = 1) (Nat.add_mod_right _ 2))
    · have hnone : ([c] ++ ['\\']).takeWhile (· == '\\') = [] :=
        List.takeWhile_cons_of_neg (by simpa using hc)
      rw [hnone, List.append_nil, hall]
  · exact Iff.rfl

theorem hasClosingQuote_quote (rest : List Char) : HasClosingQuote ('"' :: rest) :=
  ⟨[], rest, rfl, Nat.zero_ne_one⟩

theorem not_hasClosingQuote_nil : ¬ HasClosingQuote [] := by
  rintro ⟨before, after, h, -⟩
  exact List.append_ne_nil_of_right_ne_nil before (List.cons_ne_nil _ _) h.symm

theorem hasClosingQuote_cons {c : Char} (hquote : c ≠ '"') (hback : c ≠ '\\') (rest : List Char) :
    HasClosingQuote (c :: rest) ↔ HasClosingQuote rest := by
  constructor
  · rintro ⟨before, after, h, hbefore⟩
    cases before with
    | nil => exact absurd (List.cons.inj h).1 hquote
    | cons d before =>
      obtain ⟨rfl, hrest⟩ := List.cons.inj h
      exact ⟨before, after, hrest, fun he => hbefore ((escapes_cons hback before).mpr he)⟩
  · rintro ⟨before, after, rfl, hbefore⟩
    exact ⟨c :: before, after, rfl, fun he => hbefore ((escapes_cons hback before).mp he)⟩

theorem not_hasClosingQuote_backslash : ¬ HasClosingQuote ['\\'] := by
  rintro ⟨before, after, h, -⟩
  cases before with
  | nil => exact absurd (List.cons.inj h).1 (by decide)
  | cons d before =>
    exact List.append_ne_nil_of_right_ne_nil before (List.cons_ne_nil _ _) (List.cons.inj h).2.symm

theorem hasClosingQuote_pair (c : Char) (rest : List Char) :
    HasClosingQuote ('\\' :: c :: rest) ↔ HasClosingQuote rest := by
  constructor
  · rintro ⟨before, after, h, hbefore⟩
    match before with
    | [] => exact absurd (List.cons.inj h).1 (by decide)
    | [d] =>
      -- the quote right behind the backslash
      obtain ⟨rfl, -⟩ := List.cons.inj h
      exact absurd rfl hbefore
    | d :: e :: before =>
      obtain ⟨rfl, htail⟩ := List.cons.inj h
      obtain ⟨rfl, hrest⟩ := List.cons.inj htail
      exact ⟨before, after, hrest, fun he => hbefore ((escapes_pair c before).mpr he)⟩
  · rintro ⟨before, after, rfl, hbefore⟩
    exact ⟨'\\' :: c :: before, after, rfl, fun he => hbefore ((escapes_pair c before).mp he)⟩

/-- A string has an end exactly if a quote behind its first one is not escaped. -/
theorem isSome_stringBody_iff (text : List Char) :
    (stringBody text).isSome ↔ HasClosingQuote text := by
  fun_induction stringBody text with
  | case1 => exact iff_of_false Bool.false_ne_true not_hasClosingQuote_nil
  | case2 rest => exact iff_of_true rfl (hasClosingQuote_quote rest)
  | case3 => exact iff_of_false Bool.false_ne_true not_hasClosingQuote_backslash
  | case4 c rest ih => rw [Option.isSome_map, ih, hasClosingQuote_pair]
  | case5 c rest hquote hend hslash ih =>
    have hback : c ≠ '\\' := by
      rintro rfl
      cases rest with
      | nil => exact hend rfl rfl
      | cons d rest => exact hslash d rest rfl rfl
    rw [Option.isSome_map, ih, hasClosingQuote_cons hquote hback]

namespace Rule

theorem stringLiteral_of_body {written value rest : List Char}
    (h : stringBody (written ++ '"' :: rest) = some (value, rest)) (place : Place) :
    stringLiteral (.withRest place ('"' :: (written ++ '"' :: rest))) =
      .ok (String.ofList value) (.withRest (place.through ('"' :: (written ++ ['"']))) rest) := by
  have htext : '"' :: (written ++ '"' :: rest) = '"' :: (written ++ ['"']) ++ rest := by simp
  have hlength : ('"' :: (written ++ '"' :: rest)).length - rest.length =
      ('"' :: (written ++ ['"'])).length := by
    rw [htext, List.length_append, Nat.add_sub_cancel]
  rw [← Cursor.advance_append, ← htext, ← hlength]
  unfold stringLiteral
  simp only [Cursor.withRest, h]

/-- Every way to write a string in quotes is read as the string, whatever follows, and what
follows is left, at the place behind the closing quote.  A text that begins with a quote is read
as a string exactly if a later quote is not escaped; if there is none, the rule aborts with a
complaint at the first quote. -/
theorem stringLiteral_inQuotes (place : Place) :
    (∀ (value : String) (written rest : List Char), InQuotes value.toList written →
      stringLiteral (.withRest place ('"' :: (written ++ '"' :: rest))) =
        .ok value (.withRest (place.through ('"' :: (written ++ ['"']))) rest)) ∧
    ∀ text : List Char,
      let c := Cursor.withRest place ('"' :: text)
      (stringLiteral c = .abort ⟨c, .complaint "unterminated string literal"⟩ ↔
          ¬ HasClosingQuote text) ∧
        ((∃ value next, stringLiteral c = .ok value next) ↔ HasClosingQuote text) := by
  refine ⟨fun value written rest h => ?_, fun text => ?_⟩
  · rw [stringLiteral_of_body (stringBody_inQuotes h rest), String.ofList_toList]
  · intro c
    rw [← isSome_stringBody_iff]
    cases hbody : stringBody text with
    | none =>
      have habort : stringLiteral c = .abort ⟨c, .complaint "unterminated string literal"⟩ := by
        simp only [stringLiteral, c, Cursor.withRest, hbody]
      refine ⟨iff_of_true habort Bool.false_ne_true, iff_of_false ?_ Bool.false_ne_true⟩
      rintro ⟨value, next, hok⟩
      rw [habort] at hok
      cases hok
    | some found =>
      obtain ⟨value, next, hok⟩ : ∃ value next, stringLiteral c = .ok value next := by
        simp only [stringLiteral, c, Cursor.withRest, hbody]
        exact ⟨_, _, rfl⟩
      refine ⟨iff_of_false ?_ (absurd rfl), iff_of_true ⟨value, next, hok⟩ rfl⟩
      intro habort
      rw [habort] at hok
      cases hok

/-- An escaped quote on both sides of a letter of two bytes, and an escaped line feed. -/
theorem stringLiteral_quotedLetter :
    let written := ['\\', '"', 'é', '\\', '"', '\\', 'n']
    InQuotes "\"é\"\n".toList written ∧
      stringLiteral (.withRest ⟨⟨1, 1⟩, 0⟩ ('"' :: (written ++ '"' :: " tail".toList))) =
        .ok "\"é\"\n" (.withRest ⟨⟨1, 10⟩, 10⟩ " tail".toList) := by
  intro written
  have h : InQuotes "\"é\"\n".toList written :=
    .quote (.char (by decide) (by decide) (.quote (.newline .nil)))
  exact ⟨h, (stringLiteral_inQuotes ⟨⟨1, 1⟩, 0⟩).1 _ written _ h⟩

end Rule

end Storybook.Script
