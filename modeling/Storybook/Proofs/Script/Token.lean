/-
# `Storybook.Proofs.Script.Token` — scripts written token by token

A script is spread out of tokens with a single blank between any two of them (`spread`).  A token
is a text that begins with neither a blank nor a comment; if it is an expression, there may be some
of them in front (`Token.lead`).  A rule that reads some tokens may stop before the blank that
follows them or at the next token: the rules that come next pass over what is between.  So there
are two conditions on a cursor before some tokens, and one judgement between conditions:

| | |
| :-- | :-- |
| `At ts c` | the cursor is at the text of the first one of the tokens |
| `Before ts c` | it is there, or at the blank in front |
| `Takes S p Q T` | from a cursor with `S` the rule gets to one with `T`, and its value has `Q` |
| `Declines keys p` | the rule refuses tokens that begin with none of the words `keys` |

Constructs are told apart by their first words.  `leading ts` is the run of name characters at the
front of some tokens, and an alternative is chosen by it (`Takes.firstOf`).
-/
import Mathlib.Data.List.Forall2
import Storybook.Proofs.Script.Closed
import Storybook.Script.Grammar

namespace Storybook.Script

/-! ## Tokens -/

/-- A text that begins with neither a blank nor a comment, behind some blanks and comments. -/
structure Token where
  lead : List Char
  text : List Char
  skipped : Skipped lead
  opens : Opens text

/-- Whether a text is a run of name characters. -/
def isRun (w : String) : Bool := !w.toList.isEmpty && w.toList.all Text.isNameChar

/-- Whether a text begins with something else than a blank or a slash. -/
def isMark (m : String) : Bool := m.toList.head?.any fun c => !(isSpace c || c == '/')

theorem opens_of_isDigit {read : List Char} (hne : read ≠ []) (h : ∀ c ∈ read, c.isDigit = true)
    (rest : List Char) : Opens (read ++ rest) := by
  obtain ⟨c, more, rfl⟩ := List.exists_cons_of_ne_nil hne
  exact (plain_of_isNameChar (isNameChar_of_isDigit (h c (List.mem_cons_self ..))) _).opens

theorem opens_of_isName {name : String} (h : Text.isName name.toList = true) :
    Opens name.toList := by
  cases hl : name.toList with
  | nil => rw [hl] at h; exact nomatch h
  | cons c others =>
    rw [hl] at h
    have hc := (Bool.and_eq_true_iff.mp h).1
    exact (plain_of_isNameChar (Text.isNameChar_of_isNameStart hc) others).opens

/-- A text with or without a minus sign. -/
def signed (negative : Bool) (text : List Char) : List Char :=
  if negative then '-' :: text else text

theorem opens_signed (negative : Bool) {text : List Char} (h : Opens text) :
    Opens (signed negative text) := by
  cases negative with
  | false => exact h
  | true => exact ⟨'-', text, rfl, by decide⟩

/-- The decimal digits of a number. -/
def decimal (n : Nat) : List Char := Nat.toDigits 10 n

theorem isDigit_decimal (n : Nat) : ∀ c ∈ decimal n, c.isDigit = true :=
  fun _ hc => Nat.isDigit_of_mem_toDigits (by decide) (by decide) hc

theorem decimal_ne_nil (n : Nat) : decimal n ≠ [] := Nat.toDigits_ne_nil

theorem digitsValue_decimal (n : Nat) : Number.digitsValue (decimal n) = n :=
  Nat.ofDigitChars_toDigits (by decide) (by decide)

theorem opens_decimal (n : Nat) (rest : List Char) : Opens (decimal n ++ rest) :=
  opens_of_isDigit (decimal_ne_nil n) (isDigit_decimal n) rest

/-- A number as it is written, with or without a minus sign. -/
structure SignedNumeral where
  negative : Bool
  magnitude : Numeral

namespace SignedNumeral

def value (n : SignedNumeral) : Float :=
  if n.negative then -n.magnitude.value else n.magnitude.value

end SignedNumeral

namespace Token

/-- A token as it is written. -/
def written (t : Token) : List Char := t.lead ++ t.text

/-- A token with no blanks and comments in front. -/
def bare (text : List Char) (opens : Opens text) : Token := ⟨[], text, .nil, opens⟩

/-- A word, which is a run of name characters. -/
def word (w : String) (h : isRun w = true := by exact Eq.refl true) : Token :=
  .bare w.toList <| by
    obtain ⟨hne, hall⟩ := Bool.and_eq_true_iff.mp h
    cases hl : w.toList with
    | nil => rw [hl] at hne; exact nomatch hne
    | cons c more =>
      rw [hl] at hall
      exact (plain_of_isNameChar (Bool.and_eq_true_iff.mp hall).1 more).opens

/-- A mark, which is a text that begins with neither a blank nor a slash. -/
def mark (m : String) (h : isMark m = true := by exact Eq.refl true) : Token :=
  .bare m.toList <| by
    unfold isMark at h
    cases hl : m.toList with
    | nil => rw [hl] at h; exact nomatch h
    | cons c more =>
      rw [hl] at h
      obtain ⟨hs, hm⟩ := Bool.or_eq_false_iff.mp (Bool.not_eq_eq_eq_not.mp h)
      exact ⟨c, more, rfl, hs, beq_eq_false_iff_ne.mp hm⟩

def name (name : String) (h : Text.isName name.toList = true) : Token :=
  .bare name.toList (opens_of_isName h)

/-- The name of a variable. -/
def var (x : Variable) : Token := name x.name (Bool.and_eq_true_iff.mp x.isVariable).1

/-- The name of an agent, after a number sign. -/
def target (name : String) : Token := .bare ('#' :: name.toList) ⟨'#', _, rfl, by decide⟩

/-- A string in quotes. -/
def string (value : String) : Token := .bare (quoted value) ⟨'"', _, rfl, by decide⟩

def boolean (value : Bool) : Token :=
  .bare (toString value).toList (by cases value <;> exact (plain_of_isNameChar (by rfl) _).opens)

def integer (n : Int64) : Token :=
  .bare (signed (n.toInt < 0) (decimal n.toInt.natAbs))
    (opens_signed _ (by rw [← List.append_nil (decimal _)]; exact opens_decimal _ []))

/-- A number of times. -/
def count (n : UInt32) : Token :=
  .bare (decimal n.toNat) (by rw [← List.append_nil (decimal _)]; exact opens_decimal _ [])

def number (n : SignedNumeral) : Token :=
  .bare (signed n.negative n.magnitude.text) (opens_signed _ n.magnitude.plain.opens)

def duration (d : Duration) : Token :=
  .bare (decimal d.amount.toNat ++ d.unit.symbol.toList) (opens_decimal _ _)

end Token

/-! ## Texts of tokens -/

/-- Some tokens with a blank between any two of them. -/
def spread (ts : List Token) : List Char := [' '].intercalate (ts.map Token.written)

/-- Some tokens after another one: the blank in front of them belongs to them. -/
def after : List Token → List Char
  | [] => []
  | t :: ts => ' ' :: spread (t :: ts)

/-- Some tokens from the text of the first one on. -/
def front : List Token → List Char
  | [] => []
  | t :: ts => t.text ++ after ts

theorem spread_cons (t : Token) (ts : List Token) :
    spread (t :: ts) = t.lead ++ front (t :: ts) := by
  have hspread : spread (t :: ts) = t.written ++ after ts := by
    cases ts with
    | nil => exact (List.intercalate_singleton ..).trans (List.append_nil _).symm
    | cons u ts => exact List.intercalate_cons_cons.trans (List.append_assoc ..)
  exact hspread.trans (List.append_assoc ..)

theorem settled_front (ts : List Token) : Settled (front ts) := by
  cases ts with
  | nil => exact settled_nil
  | cons t ts => exact (t.opens.append _).settled

/-- Where neither a blank nor a comment stands in front, the first token begins with its text. -/
theorem front_eq_spread {ts : List Token} (h : Settled (spread ts)) : front ts = spread ts := by
  cases ts with
  | nil => rfl
  | cons t ts =>
    have hskip := t.skipped.skipFrom (front (t :: ts)) ⟨⟨1, 1⟩, 0⟩
    rw [← spread_cons, h, settled_front] at hskip
    exact (congrArg Cursor.rest hskip).symm

theorem settled_word (w : String) (h : isRun w = true) (ts : List Token) :
    Settled (spread (.word w h :: ts)) := by
  rw [spread_cons]
  exact settled_front (.word w h :: ts)

theorem parted_after (ts : List Token) : Parted (after ts) := by
  cases ts with
  | nil => exact parted_nil
  | cons t ts => exact parted_cons rfl (by decide)

theorem after_eq (ts : List Token) : ∃ gap, Skipped gap ∧ after ts = gap ++ front ts := by
  cases ts with
  | nil => exact ⟨[], .nil, rfl⟩
  | cons t ts => exact ⟨' ' :: t.lead, .blank rfl t.skipped, congrArg _ (spread_cons t ts)⟩

theorem length_after_le (ts : List Token) : (front ts).length ≤ (after ts).length := by
  obtain ⟨gap, -, h⟩ := after_eq ts
  rw [h, List.length_append]
  exact Nat.le_add_left ..

/-- What follows some tokens is shorter. -/
theorem length_front_lt {ws : List Token} (hne : ws ≠ []) (ts : List Token) :
    (front ts).length < (front (ws ++ ts)).length := by
  induction ws with
  | nil => exact absurd rfl hne
  | cons t ws ih =>
    have hpos : 0 < t.text.length := by
      obtain ⟨c, more, h, -⟩ := t.opens
      rw [h]
      exact Nat.succ_pos _
    have hle := length_after_le (ws ++ ts)
    rw [List.cons_append, front, List.length_append]
    cases ws with
    | nil => rw [List.nil_append] at hle ⊢; omega
    | cons u ws =>
      have := ih (List.cons_ne_nil _ _)
      omega

/-! ## The word in front -/

/-- The run of name characters at the front of some tokens. -/
def leading : List Token → String
  | [] => ""
  | t :: _ => String.ofList (t.text.takeWhile Text.isNameChar)

theorem leading_word (w : String) (h : isRun w = true) (ts : List Token) :
    leading (.word w h :: ts) = w := by
  have hall := List.all_eq_true.mp (Bool.and_eq_true_iff.mp h).2
  have htaken : (w.toList ++ []).takeWhile Text.isNameChar = w.toList :=
    Rule.takeWhile_append_of_head hall rfl
  rw [List.append_nil] at htaken
  show String.ofList (w.toList.takeWhile Text.isNameChar) = w
  rw [htaken, String.ofList_toList]

theorem leading_word_mem {w : String} {h : isRun w = true} {ts : List Token} {keys : List String}
    (hw : w ∈ keys) : leading (.word w h :: ts) ∈ keys := by
  rwa [leading_word]

theorem leading_word_notMem {w : String} {h : isRun w = true} {ts : List Token}
    {keys : List String} (hw : w ∉ keys) : leading (.word w h :: ts) ∉ keys := by
  rwa [leading_word]

theorem leading_word_ne {w v : String} {h : isRun w = true} {ts : List Token} (hw : w ≠ v) :
    leading (.word w h :: ts) ≠ v := by
  rwa [leading_word]

theorem leading_target (name : String) (ts : List Token) : leading (.target name :: ts) = "" := by
  have hmark : Text.isNameChar '#' = false := by decide +kernel
  simp [leading, Token.target, Token.bare, hmark]

/-- The tokens begin with their leading run, and no name character stands after it. -/
theorem front_eq_leading (ts : List Token) : ∃ rest,
    front ts = (leading ts).toList ++ rest ∧ rest.head?.any Text.isNameChar = false ∧
      ∀ c ∈ (leading ts).toList, Text.isNameChar c = true := by
  cases ts with
  | nil => exact ⟨[], rfl, rfl, fun _ h => nomatch h⟩
  | cons t ts =>
    refine ⟨t.text.dropWhile Text.isNameChar ++ after ts, ?_,
      Rule.head?_dropWhile_append _ (parted_after ts).name, ?_⟩
    · rw [front, leading, String.toList_ofList, ← List.append_assoc,
        List.takeWhile_append_dropWhile]
    · rw [leading, String.toList_ofList]
      exact List.all_eq_true.mp List.all_takeWhile

/-! ## Cursors before tokens -/

namespace Cursor

/-- The cursor is at the text of the first one of some tokens. -/
def At (ts : List Token) (c : Cursor) : Prop := c.rest = front ts

/-- The cursor is at the text of the first one of some tokens, or at the blank in front of it. -/
def Before (ts : List Token) (c : Cursor) : Prop := c.rest = front ts ∨ c.rest = after ts

variable {ts : List Token} {c : Cursor}

theorem At.before (h : c.At ts) : c.Before ts := .inl h

theorem Before.skip (h : c.Before ts) : c.skip.At ts := by
  have hskip {gap : List Char} (hgap : Skipped gap) (hc : c.rest = gap ++ front ts) :
      c.skip.At ts := by
    unfold Cursor.skip
    rw [hc, hgap.skipFrom, settled_front ts]
    rfl
  rcases h with h | h
  · exact hskip .nil h
  · obtain ⟨gap, hgap, hafter⟩ := after_eq ts
    exact hskip hgap (h.trans hafter)

theorem Before.length_le (h : c.Before ts) : (front ts).length ≤ c.rest.length := by
  rcases h with h | h
  · exact Nat.le_of_eq (congrArg List.length h).symm
  · rw [h]
    exact length_after_le ts

end Cursor

namespace Rule

open Cursor

/-! ## The judgement -/

/-- From every cursor with `S` the rule gets to a cursor with `T`, and its value has `Q`. -/
def Takes (S : Cursor → Prop) (p : Rule α) (Q : α → Prop) (T : Cursor → Prop) : Prop :=
  ∀ c, S c → ∃ value rest, p c = .ok value rest ∧ Q value ∧ T rest

/-- The rule refuses every cursor with `S`. -/
def Stops (S : Cursor → Prop) (p : Rule α) : Prop := ∀ c, S c → Refused p c

variable {S T U : Cursor → Prop} {p q : Rule α} {f : α → Rule β} {Q Q' : α → Prop}
  {R : β → Prop} {value : α} {ts more : List Token}

theorem Takes.mono (h : Takes S p Q T) (hQ : ∀ v, Q v → Q' v) (hT : ∀ c, T c → U c) :
    Takes S p Q' U := by
  intro c hc
  obtain ⟨v, rest, hp, hv, hrest⟩ := h c hc
  exact ⟨v, rest, hp, hQ v hv, hT rest hrest⟩

theorem Takes.imp (h : Takes S p Q T) (hQ : ∀ v, Q v → Q' v) : Takes S p Q' T :=
  h.mono hQ fun _ => id

/-- A rule that passes over the blank in front also reads where there is none. -/
theorem Takes.here (h : Takes (Before ts) p Q T) : Takes (At ts) p Q T :=
  fun c hc => h c hc.before

theorem Takes.before (h : Takes S p Q (At ts)) : Takes S p Q (Before ts) :=
  h.mono (fun _ => id) fun _ => At.before

theorem Takes.pure (h : Q value) : Takes S (pure value) Q S := fun c hc => ⟨value, c, rfl, h, hc⟩

theorem Takes.bind (hp : Takes S p Q T) (hf : ∀ v, Q v → Takes T (f v) R U) :
    Takes S (p >>= f) R U := by
  intro c hc
  obtain ⟨v, rest, h, hv, hrest⟩ := hp c hc
  obtain ⟨w, last, h', hw, hlast⟩ := hf v hv rest hrest
  refine ⟨w, last, ?_, hw, hlast⟩
  rw [bind_apply, h]
  exact h'

/-- A sequence whose first part has a known value. -/
theorem Takes.seq (hp : Takes S p (· = value) T) (hf : Takes T (f value) R U) :
    Takes S (p >>= f) R U :=
  hp.bind fun _ hv => hv ▸ hf

theorem Takes.orElse_left (hp : Takes S p Q T) : Takes S (p <|> q) Q T := by
  intro c hc
  obtain ⟨v, rest, h, hv⟩ := hp c hc
  exact ⟨v, rest, by rw [orElse_apply, h], hv⟩

theorem Takes.orElse_right (hp : Stops S p) (hq : Takes S q Q T) : Takes S (p <|> q) Q T := by
  intro c hc
  obtain ⟨error, h⟩ := hp c hc
  obtain ⟨v, rest, h', hv⟩ := hq c hc
  exact ⟨v, rest, by rw [orElse_apply, h]; dsimp only; rw [h'], hv⟩

theorem Takes.optional_some (hp : Takes S p Q T) :
    Takes S (optional p) (fun v => ∃ u, v = some u ∧ Q u) T := by
  intro c hc
  obtain ⟨v, rest, h, hv, hrest⟩ := hp c hc
  exact ⟨some v, rest, by rw [Rule.optional, h], ⟨v, rfl, hv⟩, hrest⟩

theorem Takes.optional_exactly (hp : Takes S p (· = value) T) :
    Takes S (optional p) (· = some value) T :=
  hp.optional_some.imp fun _ ⟨_, hv, hu⟩ => hu ▸ hv

theorem Takes.optional_none (hp : Stops S p) : Takes S (optional p) (· = none) S := by
  intro c hc
  obtain ⟨error, h⟩ := hp c hc
  exact ⟨none, c, by rw [Rule.optional, h], rfl, hc⟩

theorem Takes.cut (hp : Takes S p Q T) : Takes S (cut p) Q T := by
  intro c hc
  obtain ⟨v, rest, h, hv⟩ := hp c hc
  exact ⟨v, rest, by rw [Rule.cut, h], hv⟩

theorem Takes.inContext {what : String} (hp : Takes S p Q T) :
    Takes S (inContext what p) Q T := by
  intro c hc
  obtain ⟨v, rest, h, hv⟩ := hp c hc
  exact ⟨v, rest, by rw [Rule.inContext, h]; rfl, hv⟩

theorem Takes.skip : Takes (Before ts) skip (· = ()) (At ts) :=
  fun c hc => ⟨(), c.skip, rfl, rfl, hc.skip⟩

theorem Takes.spaced (hp : Takes (At ts) p Q (Before more)) :
    Takes (Before ts) (spaced p) Q (At more) :=
  Takes.skip.seq <| hp.bind fun _ hv => Takes.skip.seq (.pure hv)

theorem Takes.located (hp : Takes (At ts) p Q T) :
    Takes (Before ts) (located p) (fun x => Q x.value) T := by
  refine Takes.skip.seq ?_
  have hposition : Takes (At ts) position (fun _ => True) (At ts) :=
    fun c hc => ⟨c.toPosition, c, rfl, trivial, hc⟩
  exact hposition.bind fun _ _ => hp.bind fun _ hv => .pure hv

/-! ### Refusals -/

theorem Refuses.refused {c : Cursor} (h : Refuses p c.rest) : Refused p c := h c.toPlace

theorem Stops.bind (hp : Stops S p) : Stops S (p >>= f) := fun c hc => (hp c hc).bind

theorem Takes.bind_stops (hp : Takes S p Q T) (hf : ∀ v, Q v → Stops T (f v)) :
    Stops S (p >>= f) := by
  intro c hc
  obtain ⟨v, rest, h, hv, hrest⟩ := hp c hc
  obtain ⟨error, h'⟩ := hf v hv rest hrest
  exact ⟨error, by rw [bind_apply, h]; exact h'⟩

theorem Stops.orElse (hp : Stops S p) (hq : Stops S q) : Stops S (p <|> q) := by
  intro c hc
  obtain ⟨e, h⟩ := hp c hc
  obtain ⟨e', h'⟩ := hq c hc
  exact ⟨e.further e', by rw [orElse_apply, h]; dsimp only; rw [h']⟩

theorem Stops.spaced (hp : Stops (At ts) p) : Stops (Before ts) (spaced p) :=
  Takes.skip.bind_stops fun _ _ => hp.bind

theorem Stops.located (hp : Stops (At ts) p) : Stops (Before ts) (located p) := by
  refine Takes.skip.bind_stops fun _ _ => ?_
  have hposition : Takes (At ts) position (fun _ => True) (At ts) :=
    fun c hc => ⟨c.toPosition, c, rfl, trivial, hc⟩
  exact hposition.bind_stops fun _ _ => hp.bind

/-! ### Repetition -/

theorem Takes.many_nil (hp : Stops S p) : Takes S (many p) (· = []) S := by
  intro c hc
  obtain ⟨error, h⟩ := hp c hc
  exact ⟨[], c, by rw [many, h], rfl, hc⟩

/-- Each round has to read a token at least. -/
theorem Takes.many_cons {ws : List Token} {Qs : List α → Prop} (hne : ws ≠ [])
    (hp : Takes (Before (ws ++ ts)) p Q (At ts)) (hmany : Takes (Before ts) (many p) Qs U) :
    Takes (Before (ws ++ ts)) (many p) (fun vs => ∃ v others, vs = v :: others ∧ Q v ∧ Qs others)
      U := by
  intro c hc
  obtain ⟨v, next, h, hv, hnext⟩ := hp c hc
  obtain ⟨others, last, h', hothers, hlast⟩ := hmany next hnext.before
  refine ⟨v :: others, last, ?_, ⟨v, others, rfl, hv, hothers⟩, hlast⟩
  have hlt : next.rest.length < c.rest.length := by
    rw [hnext]
    exact Nat.lt_of_lt_of_le (length_front_lt hne ts) hc.length_le
  rw [many, h]
  simp only [if_pos hlt, h']

/-! ## Tokens read -/

/-- The rule reads a token wherever it is parted from what follows. -/
def ReadsToken (p : Rule α) (t : Token) (value : α) : Prop :=
  ∀ rest, Parted rest → Reads p (t.text ++ rest) value rest

/-- A rule that reads a token leaves the blank after it. -/
theorem ReadsToken.takes {t : Token} (h : ReadsToken p t value) :
    Takes (At (t :: ts)) p (· = value) (Before ts) := by
  intro c hc
  obtain ⟨place, hread⟩ := h (after ts) (parted_after ts) c.toPlace
  refine ⟨value, .withRest place (after ts), ?_, rfl, .inr rfl⟩
  have hrest : c.rest = t.text ++ after ts := hc
  rw [← hrest] at hread
  exact hread

theorem ReadsToken.spaced {t : Token} (h : ReadsToken p t value) :
    Takes (Before (t :: ts)) (spaced p) (· = value) (Before ts) :=
  h.takes.spaced.before

theorem ReadsToken.keyword (w : String) (h : isRun w = true) :
    ReadsToken (keyword w) (.word w h) () :=
  fun _ hr => .keyword w hr

theorem ReadsToken.mark (m : String) (h : isMark m = true) : ReadsToken (token m) (.mark m h) () :=
  fun rest _ => .token m rest

theorem ReadsToken.identifier {name : String} (h : Text.isName name.toList = true) :
    ReadsToken identifier (.name name h) name :=
  fun _ hr => .identifier h hr

theorem ReadsToken.variableName (x : Variable) : ReadsToken variableName (.var x) x.name :=
  fun _ hr => .variableName x hr

theorem ReadsToken.target {name : String} (h : Text.isName name.toList = true) :
    ReadsToken target (.target name) name :=
  fun _ hr => ((Reads.text "#" _).bind (.identifier h hr)).inContext

theorem ReadsToken.stringLiteral (value : String) :
    ReadsToken stringLiteral (.string value) value :=
  fun _ _ => .stringLiteral value _

theorem ReadsToken.boolean (value : Bool) : ReadsToken boolean (.boolean value) value :=
  fun _ hr => .boolean value hr

/-! ### Numbers -/

theorem Reads.computed {g : α → Except String β} {result : β} {input rest : List Char}
    (hp : Reads p input value rest) (hg : g value = .ok result) :
    Reads (computed p g) input result rest := by
  intro place
  obtain ⟨place', h⟩ := hp place
  exact ⟨place', by rw [Rule.computed, h]; dsimp only; rw [hg]⟩

theorem Reads.minus {text rest : List Char} (negative : Bool)
    (htext : (text ++ rest).head? ≠ some '-') :
    Reads minus (signed negative text ++ rest) negative (text ++ rest) := by
  cases negative with
  | true => exact (Reads.optional_some (.text "-" _)).bind (.pure _ _)
  | false =>
    refine (Reads.optional_none (.text ?_)).bind (.pure _ _)
    rintro ⟨more, h⟩
    exact htext (congrArg List.head? h).symm

theorem head?_ne_minus {read : List Char} (hne : read ≠ []) (h : ∀ c ∈ read, c.isDigit = true)
    (rest : List Char) : (read ++ rest).head? ≠ some '-' := by
  obtain ⟨c, more, rfl⟩ := List.exists_cons_of_ne_nil hne
  intro hc
  have hdigit := h c (List.mem_cons_self ..)
  rw [Option.some.inj hc] at hdigit
  exact absurd hdigit (by decide)

/-- The digits of a number, with a sign. -/
theorem Reads.integer {negative : Bool} {n : Nat} {value : Int64} {rest : List Char}
    (hvalue : int64OfDigits negative (decimal n) = .ok value) (hr : Parted rest) :
    Reads integer (signed negative (decimal n) ++ rest) value rest := by
  have hminus := head?_ne_minus (decimal_ne_nil n) (isDigit_decimal n) rest
  have hdigits := Reads.digits (decimal_ne_nil n) (isDigit_decimal n) hr.digit
  have hread : Reads (do Pure.pure (← Rule.minus, ← Rule.digits))
      (signed negative (decimal n) ++ rest) (negative, decimal n) rest :=
    (Reads.minus negative hminus).bind (hdigits.bind (.pure _ _))
  exact (hread.computed hvalue).inContext

theorem int64OfDigits_decimal (n : Int64) :
    int64OfDigits (n.toInt < 0) (decimal n.toInt.natAbs) = .ok n := by
  have hlow := n.minValue_le_toInt
  have hhigh := n.toInt_le
  unfold int64OfDigits
  simp only [digitsValue_decimal]
  by_cases hneg : n.toInt < 0
  · have habs : -(n.toInt.natAbs : Int) = n.toInt := by omega
    simp only [hneg, decide_true, if_true, habs, hlow, Int64.ofInt_toInt]
  · have habs : (n.toInt.natAbs : Int) = n.toInt := by omega
    simp only [hneg, decide_false, habs, hhigh, if_true, Int64.ofInt_toInt]
    rfl

theorem ReadsToken.integer (n : Int64) : ReadsToken integer (.integer n) n :=
  fun _ hr => .integer (int64OfDigits_decimal n) hr

theorem ReadsToken.count (n : UInt32) : ReadsToken count (.count n) n := by
  intro rest hr
  have hlt : n.toNat < 2 ^ 32 := n.toNat_lt
  have hint : (Int64.ofInt n.toNat).toInt = n.toNat := Int64.toInt_ofInt_of_le (by omega) (by omega)
  have hdigits : int64OfDigits false (decimal n.toNat) = .ok (.ofInt n.toNat) := by
    unfold int64OfDigits
    rw [digitsValue_decimal]
    have hmax : (n.toNat : Int) ≤ Int64.maxValue.toInt := by
      rw [show Int64.maxValue.toInt = 2 ^ 63 - 1 from rfl]
      omega
    exact if_pos hmax
  have hcount : uint32OfInt64 (.ofInt n.toNat) = .ok n := by
    unfold uint32OfInt64
    rw [hint, if_neg (by omega), if_pos (by exact_mod_cast hlt), Int.toNat_natCast,
      UInt32.ofNat_toNat]
  exact (Reads.integer hdigits hr).computed hcount

theorem Reads.durationUnit (unit : DurationUnit) (rest : List Char) :
    Reads durationUnit (unit.symbol.toList ++ rest) unit rest := by
  cases unit with
  | milliseconds => exact .orElse_left (.bind (.text "ms" _) (.pure _ _))
  | seconds =>
    have hother : Refuses (Rule.text "ms") ("s".toList ++ rest) := .text_of_head rfl
    exact .orElse_right hother.bind (.bind (.text "s" _) (.pure _ _))

theorem ReadsToken.duration (d : Duration) : ReadsToken duration (.duration d) d := by
  intro rest hr
  have hdigits : uint64OfDigits (decimal d.amount.toNat) = .ok d.amount := by
    unfold uint64OfDigits
    rw [digitsValue_decimal, if_pos d.amount.toNat_lt, UInt64.ofNat_toNat]
  have hunit : (d.unit.symbol.toList ++ rest).head?.any Char.isDigit = false := by
    cases d.unit <;> rfl
  have hamount : Reads wholeNumber (decimal d.amount.toNat ++ (d.unit.symbol.toList ++ rest))
      d.amount (d.unit.symbol.toList ++ rest) :=
    (Reads.digits (decimal_ne_nil _) (isDigit_decimal _) hunit).computed hdigits
  show Reads _ ((decimal _ ++ _) ++ rest) _ _
  rw [List.append_assoc]
  refine Reads.unfollowed (Reads.inContext ?_) hr.name
  exact hamount.bind ((Reads.durationUnit d.unit rest).bind (.pure _ _))

theorem ReadsToken.signedNumber (n : SignedNumeral) :
    ReadsToken signedNumber (.number n) n.value := by
  intro rest hr
  have hminus : (n.magnitude.text ++ rest).head? ≠ some '-' := by
    obtain ⟨c, more, htext, hc⟩ := n.magnitude.plain
    rw [htext]
    exact fun h => hc.2.2.1 (Option.some.inj h)
  refine Reads.inContext ?_
  exact (Reads.minus n.negative hminus).bind ((Reads.number n.magnitude hr).bind (.pure _ _))

/-! ## Words, marks and expressions with blanks around them -/

theorem Takes.word (w : String) (h : isRun w = true) :
    Takes (Before (.word w h :: ts)) (word w) (· = ()) (Before ts) :=
  (ReadsToken.keyword w h).spaced

theorem Takes.symbol (m : String) (h : isMark m = true) :
    Takes (Before (.mark m h :: ts)) (symbol m) (· = ()) (Before ts) :=
  (ReadsToken.mark m h).spaced

/-! ## Alternatives -/

/-- The rule refuses tokens that begin with none of some words. -/
def Declines (keys : List String) (p : Rule α) : Prop :=
  ∀ ts, leading ts ∉ keys → Stops (At ts) p

variable {keys keys' : List String}

theorem Declines.keyword {w : String} (h : isRun w = true) : Declines [w] (keyword w) := by
  intro ts hw c hc
  obtain ⟨rest, hfront, hrest, hname⟩ := front_eq_leading ts
  refine Refuses.refused ?_
  rw [hc, hfront]
  refine Refuses.keyword (Bool.and_eq_true_iff.mp h).2 hname (fun he => hw ?_) hrest
  rw [String.toList_inj.mp he]
  exact List.mem_singleton_self _

/-- No word begins with a number sign. -/
theorem Declines.numberSign : Declines [""] (text "#") := by
  intro ts hw c hc
  obtain ⟨rest, hfront, -, hname⟩ := front_eq_leading ts
  refine Refuses.refused ?_
  rw [hc, hfront]
  cases hl : (leading ts).toList with
  | nil => exact absurd (List.mem_singleton.mpr (String.toList_eq_nil_iff.mp hl)) hw
  | cons d more =>
    rw [hl] at hname
    have hd : '#' ≠ d := by
      rintro rfl
      exact absurd (hname '#' (List.mem_cons_self ..)) (by decide +kernel)
    exact .text_of_head (bne_iff_ne.mpr hd)

theorem Declines.bind (h : Declines keys p) : Declines keys (p >>= f) :=
  fun ts hw => (h ts hw).bind

theorem Declines.orElse (hp : Declines keys p) (hq : Declines keys' q) :
    Declines (keys ++ keys') (p <|> q) := by
  intro ts hw
  obtain ⟨hw, hw'⟩ := not_or.mp (mt List.mem_append.mpr hw)
  exact (hp ts hw).orElse (hq ts hw')

/-- The first one of some rules that does not refuse. -/
def firstOf : List (Rule α) → Rule α
  | [] => refuse .unexpected
  | [p] => p
  | p :: q :: rules => p <|> firstOf (q :: rules)

theorem Declines.firstOf {keys : List (List String)} {rules : List (Rule α)}
    (h : List.Forall₂ Declines keys rules) : Declines keys.flatten (firstOf rules) := by
  induction h with
  | nil => exact fun _ _ c _ => ⟨_, rfl⟩
  | @cons first p others rules hp hothers ih =>
    cases hothers with
    | nil =>
      rw [List.flatten_cons, List.flatten_nil, List.append_nil]
      exact hp
    | cons => exact hp.orElse ih

/-- All rules refuse, if all but the last one decline the tokens and that one refuses them. -/
theorem Stops.firstOf {keys : List (List String)} {rules : List (Rule α)} {last : Rule α}
    (h : List.Forall₂ Declines keys rules) (hfree : leading ts ∉ keys.flatten)
    (hlast : Stops (At ts) last) : Stops (At ts) (firstOf (rules ++ [last])) := by
  induction h with
  | nil => exact hlast
  | @cons first p others rules hp hothers ih =>
    rw [List.flatten_cons] at hfree
    obtain ⟨hfirst, hlater⟩ := not_or.mp (mt List.mem_append.mpr hfree)
    cases rules with
    | nil => exact (hp ts hfirst).orElse (ih hlater)
    | cons => exact (hp ts hfirst).orElse (ih hlater)

/-- The rule that tokens are for reads them, if those in front of it decline them. -/
theorem Takes.firstOf {keys : List (List String)} {rules : List (Rule α)}
    (h : List.Forall₂ Declines keys rules) (i : Nat) (hi : rules[i]? = some p)
    (hfree : leading ts ∉ (keys.take i).flatten) (hread : Takes (At ts) p Q T) :
    Takes (At ts) (firstOf rules) Q T := by
  induction h generalizing i with
  | nil => exact nomatch hi
  | @cons first q others rules hq hothers ih =>
    cases i with
    | zero =>
      cases Option.some.inj hi
      cases rules with
      | nil => exact hread
      | cons => exact hread.orElse_left
    | succ i =>
      rw [List.take_succ_cons, List.flatten_cons] at hfree
      obtain ⟨hfirst, hlater⟩ := not_or.mp (mt List.mem_append.mpr hfree)
      have hrest := ih i hi hlater
      cases hothers with
      | nil => exact nomatch hi
      | cons => exact .orElse_right (hq ts hfirst) hrest

end Rule

end Storybook.Script
