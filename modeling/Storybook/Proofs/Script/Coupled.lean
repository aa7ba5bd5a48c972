/-
# `Storybook.Proofs.Script.Coupled` — one rule in two runs

A rule reads a text alone in one run, and in another run it reads the text with something behind it.
Two judgements compare the runs at cursors with a relation `S`:

| | |
| :-- | :-- |
| `Couples S T p q` | where `p` reads something, `q` reads the same, up to cursors with `T` |
| `Balks S p q` | where `p` refuses, `q` refuses |

The second one matters wherever something else is tried after a refusal.  There are two rules, since
the runs may have different fuel for the operands inside an operand.  Nothing is said of the places
where `p` aborts.

A rule of words does the same in both runs (`Lexical`): what is behind the text begins with a blank,
and that goes on no word.
-/
import Storybook.Proofs.Script.Closed
import Storybook.Proofs.Script.Outcome

namespace Storybook.Script

namespace Rule

/-! ## Two runs -/

/-- Where the first rule reads something at the first one of two cursors with `S`, the second rule
reads the same at the second one, and both get to cursors with `T`. -/
def Couples (S T : Cursor → Cursor → Prop) (p q : Rule α) : Prop :=
  ∀ c d, S c d → ∀ v c', p c = .ok v c' → ∃ d', q d = .ok v d' ∧ T c' d'

/-- Where the first rule refuses the first one of two cursors with `S`, the second rule refuses
the second one. -/
def Balks (S : Cursor → Cursor → Prop) (p q : Rule α) : Prop :=
  ∀ c d, S c d → Refused p c → Refused q d

/-- Whether a rule reads nothing at a cursor. -/
def Fails (p : Rule α) (c : Cursor) : Prop := ∀ v c', p c ≠ .ok v c'

section Judgement

variable {S S' T T' U : Cursor → Cursor → Prop} {p p' q q' : Rule α} {f g : α → Rule β}
  {c : Cursor}

theorem Couples.mono (h : Couples S T p q) (hS : ∀ c d, S' c d → S c d)
    (hT : ∀ c d, T c d → T' c d) : Couples S' T' p q := by
  intro c d hcd v c' hp
  obtain ⟨d', hq, hnext⟩ := h c d (hS c d hcd) v c' hp
  exact ⟨d', hq, hT c' d' hnext⟩

theorem Couples.pure (v : α) : Couples S S (Pure.pure v) (Pure.pure v) := by
  intro c d hcd u c' hp
  cases hp
  exact ⟨d, rfl, hcd⟩

theorem Couples.bind (hp : Couples S T p q) (hf : ∀ v, Couples T U (f v) (g v)) :
    Couples S U (p >>= f) (q >>= g) := by
  intro c d hcd w c' h
  obtain ⟨v, e, hpc, hfe⟩ := bind_ok_iff.mp h
  obtain ⟨e', hqd, hee⟩ := hp c d hcd v e hpc
  obtain ⟨d', hge, hnext⟩ := hf v e e' hee w c' hfe
  exact ⟨d', bind_ok_iff.mpr ⟨v, e', hqd, hge⟩, hnext⟩

/-- Where the first alternative of the first run refuses, only the second one can read something,
and the second run has to get to its second alternative as well. -/
theorem Couples.orElse_of_ok (hp : Couples S T p q)
    (hb : ∀ c d, S c d → Refused p c → ∀ v c', p' c = .ok v c' → Refused q d)
    (hp' : Couples S T p' q') : Couples S T (p <|> p') (q <|> q') := by
  intro c d hcd v c' h
  rcases orElse_ok_iff.mp h with h | ⟨hrefused, h⟩
  · obtain ⟨d', hq, hnext⟩ := hp c d hcd v c' h
    exact ⟨d', orElse_ok_iff.mpr (.inl hq), hnext⟩
  · obtain ⟨d', hq', hnext⟩ := hp' c d hcd v c' h
    exact ⟨d', orElse_ok_iff.mpr (.inr ⟨hb c d hcd hrefused v c' h, hq'⟩), hnext⟩

theorem Couples.orElse (hp : Couples S T p q) (hb : Balks S p q) (hp' : Couples S T p' q') :
    Couples S T (p <|> p') (q <|> q') :=
  hp.orElse_of_ok (fun c d hcd h _ _ _ => hb c d hcd h) hp'

theorem Couples.cut (hp : Couples S T p q) : Couples S T (cut p) (cut q) := by
  intro c d hcd v c' h
  obtain ⟨d', hq, hnext⟩ := hp c d hcd v c' (cut_ok_iff.mp h)
  exact ⟨d', cut_ok_iff.mpr hq, hnext⟩

theorem Couples.inContext {what : String} (hp : Couples S T p q) :
    Couples S T (inContext what p) (inContext what q) := by
  intro c d hcd v c' h
  obtain ⟨d', hq, hnext⟩ := hp c d hcd v c' (inContext_ok_iff.mp h)
  exact ⟨d', inContext_ok_iff.mpr hq, hnext⟩

theorem Couples.optional_bind {f g : Option α → Rule β} (hp : Couples S T p q) (hb : Balks S p q)
    (hsome : ∀ v, Couples T U (f (some v)) (g (some v))) (hnone : Couples S U (f none) (g none)) :
    Couples S U (optional p >>= f) (optional q >>= g) := by
  intro c d hcd w c' h
  obtain ⟨o, e, ho, hfe⟩ := bind_ok_iff.mp h
  rcases optional_ok_iff.mp ho with ⟨v, rfl, hpc⟩ | ⟨rfl, rfl, hrefused⟩
  · obtain ⟨e', hqd, hee⟩ := hp c d hcd v e hpc
    obtain ⟨d', hge, hnext⟩ := hsome v e e' hee w c' hfe
    exact ⟨d', bind_ok_iff.mpr ⟨_, e', optional_ok_iff.mpr (.inl ⟨v, rfl, hqd⟩), hge⟩, hnext⟩
  · obtain ⟨d', hge, hnext⟩ := hnone e d hcd w c' hfe
    have hd := optional_ok_iff.mpr (.inr ⟨rfl, rfl, hb e d hcd hrefused⟩)
    exact ⟨d', bind_ok_iff.mpr ⟨none, d, hd, hge⟩, hnext⟩

theorem Couples.optional (hp : Couples S S p q) (hb : Balks S p q) :
    Couples S S (optional p) (optional q) := by
  intro c d hcd o c' h
  rcases optional_ok_iff.mp h with ⟨v, rfl, hpc⟩ | ⟨rfl, rfl, hrefused⟩
  · obtain ⟨d', hqd, hnext⟩ := hp c d hcd v c' hpc
    exact ⟨d', optional_ok_iff.mpr (.inl ⟨v, rfl, hqd⟩), hnext⟩
  · exact ⟨d, optional_ok_iff.mpr (.inr ⟨rfl, rfl, hb c' d hcd hrefused⟩), hcd⟩

theorem Couples.notAhead (hb : Balks S p q) : Couples S S (notAhead p) (notAhead q) := by
  intro c d hcd u c' h
  obtain ⟨rfl, hrefused⟩ := notAhead_ok_iff.mp h
  exact ⟨d, notAhead_ok_iff.mpr ⟨rfl, hb c' d hcd hrefused⟩, hcd⟩

theorem Balks.notAhead (hp : Couples S T p q) : Balks S (notAhead p) (notAhead q) := by
  intro c d hcd h
  obtain ⟨v, e, hpc⟩ := refused_notAhead_iff.mp h
  obtain ⟨d', hqd, -⟩ := hp c d hcd v e hpc
  exact refused_notAhead_iff.mpr ⟨v, d', hqd⟩

theorem Balks.mono (h : Balks S p q) (hS : ∀ c d, S' c d → S c d) : Balks S' p q :=
  fun c d hcd => h c d (hS c d hcd)

theorem Balks.of_commits (h : Commits p) : Balks S p q :=
  fun c _ _ hrefused => absurd hrefused (h c)

theorem Balks.bind (hp : Couples S T p q) (hb : Balks S p q) (hf : ∀ v, Balks T (f v) (g v)) :
    Balks S (p >>= f) (q >>= g) := by
  intro c d hcd h
  rcases refused_bind_iff.mp h with hrefused | ⟨v, e, hpc, hfe⟩
  · exact (hb c d hcd hrefused).bind
  · obtain ⟨e', hqd, hee⟩ := hp c d hcd v e hpc
    exact refused_bind_iff.mpr (.inr ⟨v, e', hqd, hf v e e' hee hfe⟩)

theorem Balks.bind_commits (hb : Balks S p q) (hf : ∀ v, Commits (f v)) :
    Balks S (p >>= f) (q >>= g) :=
  fun c d hcd h => (hb c d hcd (h.of_bind hf)).bind

theorem Balks.optional_bind {f g : Option α → Rule β} (hb : Balks S p q)
    (hsome : ∀ v, Commits (f (some v))) (hnone : Balks S (f none) (g none)) :
    Balks S (Rule.optional p >>= f) (Rule.optional q >>= g) := by
  intro c d hcd h
  rcases refused_bind_iff.mp h with h | ⟨o, e, ho, hfe⟩
  · exact absurd h (Commits.optional p c)
  · rcases optional_ok_iff.mp ho with ⟨v, rfl, -⟩ | ⟨rfl, rfl, hrefused⟩
    · exact absurd hfe (hsome v e)
    · have hd := optional_ok_iff.mpr (.inr ⟨rfl, rfl, hb e d hcd hrefused⟩)
      exact refused_bind_iff.mpr (.inr ⟨none, d, hd, hnone e d hcd hfe⟩)

theorem Balks.orElse (hp : Balks S p q) (hp' : Balks S p' q') :
    Balks S (p <|> p') (q <|> q') := by
  intro c d hcd h
  obtain ⟨h, h'⟩ := refused_orElse_iff.mp h
  exact refused_orElse_iff.mpr ⟨hp c d hcd h, hp' c d hcd h'⟩

theorem Balks.inContext {what : String} (hp : Balks S p q) :
    Balks S (inContext what p) (inContext what q) :=
  fun c d hcd h => refused_inContext_iff.mpr (hp c d hcd (refused_inContext_iff.mp h))

theorem Refused.fails (h : Refused p c) : Fails p c := by
  obtain ⟨error, h⟩ := h
  exact fun v c' hp => nomatch h.symm.trans hp

theorem Fails.bind (h : Fails p c) : Fails (p >>= f) c := by
  intro w c' hbind
  obtain ⟨v, e, hp, -⟩ := bind_ok_iff.mp hbind
  exact h v e hp

/-- Nothing is read where another character stands than the one it begins with. -/
theorem Fails.text_bind {d : Char} {more : List Char} (hc : c.rest = d :: more) {m : String}
    (hm : m.toList.head?.any (· != d) = true) {f : Unit → Rule β} :
    Fails (Rule.text m >>= f) c := by
  have hrefuses : Refuses (Rule.text m) c.rest := hc ▸ .text_of_head hm
  exact (Refused.fails (hrefuses c.toPlace)).bind

theorem Fails.orElse (hp : Fails p c) (hq : Fails q c) : Fails (p <|> q) c := by
  intro v c' h
  rcases orElse_ok_iff.mp h with h | ⟨-, h⟩
  · exact hp v c' h
  · exact hq v c' h

theorem Fails.inContext {what : String} (h : Fails p c) : Fails (inContext what p) c :=
  fun v c' hp => h v c' (inContext_ok_iff.mp hp)

theorem Fails.cut (h : Fails p c) : Fails (cut p) c := fun v c' hp => h v c' (cut_ok_iff.mp hp)

theorem Fails.optional_bind {f : Option α → Rule β} (h : Fails p c) (hf : Fails (f none) c) :
    Fails (optional p >>= f) c := by
  intro w c' hbind
  obtain ⟨o, e, ho, hfe⟩ := bind_ok_iff.mp hbind
  rcases optional_ok_iff.mp ho with ⟨v, rfl, hp⟩ | ⟨rfl, rfl, -⟩
  · exact h v e hp
  · exact hf w c' hfe

theorem Fails.spaced (h : Fails p c.skip) : Fails (spaced p) c := by
  intro v c' hspaced
  obtain ⟨u, e, hskip, hrest⟩ := bind_ok_iff.mp hspaced
  cases hskip
  exact h.bind v c' hrest

end Judgement

/-! ## Words -/

/-- A rule of words reads the same, whether something stands behind a blank after the text or not,
and it reads `k` characters at least. -/
structure Lexical (k : Nat) (p : Rule α) : Prop where
  couples : ∀ rest n, Couples (Inside rest (n + k)) (Inside rest n) p p
  balks : ∀ rest n, Balks (Inside rest n) p p

/-- What is in front of a blank does not begin with a word that has no blank, unless it does so
without the blank. -/
theorem prefix_of_prefix_append {word text rest : List Char} (h : ' ' ∉ word)
    (hword : word <+: text ++ ' ' :: rest) : word <+: text := by
  obtain ⟨after, hafter⟩ := hword
  rcases List.append_eq_append_iff.mp hafter with ⟨more, rfl, -⟩ | ⟨more, rfl, hmore⟩
  · exact ⟨more, rfl⟩
  · cases more with
    | nil => exact ⟨[], by simp⟩
    | cons c more =>
      cases (List.cons.inj hmore).1
      exact absurd (by simp) h

/-- What is behind the text of the first cursor, and nothing about that text. -/
def Behind (rest : List Char) (c d : Cursor) : Prop := d.rest = c.rest ++ ' ' :: rest

theorem Couples.text (m : String) (rest : List Char) :
    Couples (Behind rest) (Behind rest) (text m) (text m) := by
  intro c d hcd u c' h
  refine (Reads.text m (c'.rest ++ ' ' :: rest)).ok_at ?_
  rw [hcd, rest_of_text h, List.append_assoc]

theorem Balks.text {m : String} {rest : List Char} (hm : ' ' ∉ m.toList) :
    Balks (Behind rest) (Rule.text m) (Rule.text m) := by
  intro c d hcd h
  rw [refused_text_iff] at h ⊢
  rw [hcd]
  exact mt (prefix_of_prefix_append hm) h

/-- Whether a text has neither a blank nor a quote nor a slash, and one character at least. -/
def isSolid (m : String) : Bool :=
  !m.toList.isEmpty && m.toList.all fun c => c != ' ' && isInert c

namespace Lexical

variable {k : Nat} {p q : Rule α} {f : α → Rule β}

theorem weaken (h : Lexical 1 p) : Lexical 0 p where
  couples rest n := (h.couples rest n).mono (fun _ _ hcd => hcd.mono (Nat.le_succ n)) fun _ _ => id
  balks := h.balks

theorem pure (v : α) : Lexical 0 (Pure.pure v) where
  couples _ _ := .pure v
  balks _ _ := .of_commits (.pure v)

theorem bind (hp : Lexical k p) (hf : ∀ v, Lexical 0 (f v)) : Lexical k (p >>= f) where
  couples rest n := (hp.couples rest n).bind fun v => (hf v).couples rest n
  balks rest n := by
    refine Balks.bind (T := Inside rest n) ?_ (hp.balks rest n) fun v => (hf v).balks rest n
    exact (hp.couples rest n).mono (fun _ _ hcd => hcd.mono (Nat.le_add_right n k)) fun _ _ => id

theorem orElse (hp : Lexical k p) (hq : Lexical k q) : Lexical k (p <|> q) where
  couples rest n := (hp.couples rest n).orElse (hp.balks rest _) (hq.couples rest n)
  balks rest n := (hp.balks rest n).orElse (hq.balks rest n)

theorem optional (hp : Lexical 0 p) : Lexical 0 (optional p) where
  couples rest n := (hp.couples rest n).optional (hp.balks rest n)
  balks _ _ := .of_commits (.optional p)

theorem inContext {what : String} (hp : Lexical k p) : Lexical k (inContext what p) where
  couples rest n := (hp.couples rest n).inContext
  balks rest n := (hp.balks rest n).inContext

theorem named {what : String} (hp : Lexical k p) : Lexical k (named what p) where
  couples rest n c d hcd v c' h := by
    obtain ⟨d', hd, hnext⟩ := hp.couples rest n c d hcd v c' (named_ok_iff.mp h)
    exact ⟨d', named_ok_iff.mpr hd, hnext⟩
  balks rest n c d hcd h :=
    refused_named_iff.mpr (hp.balks rest n c d hcd (refused_named_iff.mp h))

theorem checked {what : String} {test : α → Bool} (hp : Lexical k p) :
    Lexical k (checked what test p) where
  couples rest n c d hcd v c' h := by
    obtain ⟨h, ht⟩ := checked_ok_iff.mp h
    obtain ⟨d', hd, hnext⟩ := hp.couples rest n c d hcd v c' h
    exact ⟨d', checked_ok_iff.mpr ⟨hd, ht⟩, hnext⟩
  balks rest n c d hcd h := by
    refine refused_checked_iff.mpr ?_
    rcases refused_checked_iff.mp h with h | ⟨v, e, h, ht⟩
    · exact .inl (hp.balks rest n c d hcd h)
    · have hcd' := hcd.mono (Nat.le_add_right n k)
      obtain ⟨d', hd, -⟩ := hp.couples rest n c d hcd' v e h
      exact .inr ⟨v, d', hd, ht⟩

/-- A blank goes on no word. -/
theorem unfollowed {what : String} {test : Char → Bool} (htest : test ' ' = false)
    (hp : Lexical k p) : Lexical k (unfollowed what test p) := by
  have hhead {rest text : List Char} :
      (text ++ ' ' :: rest).head?.any test = text.head?.any test := by
    cases text with
    | nil => exact htest
    | cons => rfl
  refine ⟨fun rest n c d hcd v c' h => ?_, fun rest n c d hcd h => ?_⟩
  · obtain ⟨h, ht⟩ := unfollowed_ok_iff.mp h
    obtain ⟨d', hd, hnext⟩ := hp.couples rest n c d hcd v c' h
    exact ⟨d', unfollowed_ok_iff.mpr ⟨hd, by rw [hnext.eq, hhead, ht]⟩, hnext⟩
  · refine refused_unfollowed_iff.mpr ?_
    rcases refused_unfollowed_iff.mp h with h | ⟨v, e, h, ht⟩
    · exact .inl (hp.balks rest n c d hcd h)
    · have hcd' := hcd.mono (Nat.le_add_right n k)
      obtain ⟨d', hd, hnext⟩ := hp.couples rest n c d hcd' v e h
      exact .inr ⟨v, d', hd, by rw [hnext.eq, hhead, ht]⟩

theorem notAhead (hp : Lexical 0 p) : Lexical 0 (notAhead p) where
  couples rest n := .notAhead (hp.balks rest n)
  balks rest n := .notAhead (hp.couples rest n)

theorem fails {c : Cursor} (hp : Lexical 1 p) (hc : c.rest = []) : Fails p c := by
  intro v c' h
  have hcd : Inside [] 1 c (.withRest c.toPlace [' ']) := ⟨by simp [hc], hc ▸ .nil, by rw [hc]; rfl⟩
  obtain ⟨_, _, hnext⟩ := hp.couples [] 0 c _ hcd v c' h
  exact absurd hnext.lt (Nat.not_lt_zero _)

theorem text {m : String} (hm : isSolid m = true) : Lexical 1 (text m) := by
  obtain ⟨hne, hall⟩ := Bool.and_eq_true_iff.mp hm
  have hchar (c : Char) (hc : c ∈ m.toList) : c ≠ ' ' ∧ isInert c = true := by
    simpa using List.all_eq_true.mp hall c hc
  have hpos : 0 < m.toList.length := by
    rw [List.length_pos_iff]
    simpa using hne
  have hblank : ' ' ∉ m.toList := fun hc => (hchar _ hc).1 rfl
  refine ⟨fun rest n c d hcd u c' h => ?_, fun rest n c d hcd => Balks.text hblank c d hcd.eq⟩
  obtain ⟨d', hd, hrest⟩ := Couples.text m rest c d hcd.eq u c' h
  have hlt := hcd.lt
  have hclosed := hcd.closed
  rw [rest_of_text h, List.length_append] at hlt
  rw [rest_of_text h] at hclosed
  exact ⟨d', hd, by omega, (closed_append_iff fun c hc => (hchar c hc).2).mp hclosed, hrest⟩

section Characters

variable {test : Char → Bool} (htest : [' ', '"', '/'].any test = false)

theorem rest_advance_takeWhile (test : Char → Bool) (c : Cursor) :
    (c.advance (c.rest.takeWhile test).length).rest = c.rest.dropWhile test :=
  calc (c.advance (c.rest.takeWhile test).length).rest
    _ = (c.rest.takeWhile test ++ c.rest.dropWhile test).drop
          (c.rest.takeWhile test).length := by
      rw [List.takeWhile_append_dropWhile, Cursor.rest_advance]
    _ = c.rest.dropWhile test := List.drop_left

include htest

theorem test_eq_false {c : Char} (hc : c ∈ [' ', '"', '/']) : test c = false :=
  Bool.eq_false_iff.mpr (List.any_eq_false.mp htest c hc)

/-- A run of characters is read off both texts. -/
theorem inside_of_run {rest read after : List Char} {n : Nat} {c d e e' : Cursor}
    (h : Inside rest (n + read.length) c d) (hread : ∀ a ∈ read, test a = true)
    (hc : c.rest = read ++ after) (he : e.rest = after) (he' : e'.rest = after ++ ' ' :: rest) :
    Inside rest n e e' := by
  have hlt := h.lt
  have hclosed := h.closed
  rw [hc, List.length_append] at hlt
  rw [hc] at hclosed
  refine ⟨by rw [he]; omega, ?_, he' ▸ he ▸ rfl⟩
  rw [he]
  refine (closed_append_iff fun a ha => ?_).mp hclosed
  refine isInert_iff.mpr ?_
  constructor <;> rintro rfl <;> exact absurd (hread _ ha) (by simp [test_eq_false htest])

theorem head?_append_blank {text rest : List Char} (h : text.head?.any test = false) :
    (text ++ ' ' :: rest).head?.any test = false := by
  cases text with
  | nil => exact test_eq_false htest (List.mem_cons_self ..)
  | cons => exact h

/-- A run of characters ends where it ended, or at the blank. -/
theorem head?_run (text rest : List Char) :
    (text.dropWhile test ++ ' ' :: rest).head?.any test = false :=
  head?_dropWhile_append text (test_eq_false htest (List.mem_cons_self ..))

theorem charsWhile : Lexical 0 (charsWhile test) := by
  refine ⟨fun rest n c d hcd v c' h => ?_, fun rest n c d _ ⟨_, h⟩ => nomatch h⟩
  have hall : ∀ a ∈ c.rest.takeWhile test, test a = true := List.all_eq_true.mp List.all_takeWhile
  have hsplit := (List.takeWhile_append_dropWhile (p := test) (l := c.rest)).symm
  have hend := head?_run htest c.rest rest
  cases h
  obtain ⟨d', hd, hrest⟩ := (Reads.charsWhile hall hend).ok_at (c := d)
    (by rw [hcd.eq, ← List.append_assoc, ← hsplit])
  exact ⟨d', hd, inside_of_run htest (hcd.mono (Nat.le_add_right ..)) hall hsplit
    (rest_advance_takeWhile test c) hrest⟩

theorem someChars : Lexical 1 (someChars test) := by
  refine ⟨fun rest n c d hcd v c' h => ?_, fun rest n c d hcd h => ?_⟩
  · have hall : ∀ a ∈ c.rest.takeWhile test, test a = true :=
      List.all_eq_true.mp List.all_takeWhile
    have hsplit := (List.takeWhile_append_dropWhile (p := test) (l := c.rest)).symm
    have hend := head?_run htest c.rest rest
    have hafter := rest_advance_takeWhile test c
    unfold Rule.someChars at h
    cases hread : c.rest.takeWhile test with
    | nil => rw [hread] at h; exact nomatch h
    | cons a more =>
      rw [hread] at h hall hsplit hafter
      cases h
      obtain ⟨d', hd, hrest⟩ := (Reads.someChars hall hend).ok_at (c := d)
        (by rw [hcd.eq, ← List.append_assoc, ← hsplit])
      exact ⟨d', hd, inside_of_run htest (hcd.mono (by simp)) hall hsplit hafter hrest⟩
  · have hhead : c.rest.head?.any test = false := by
      obtain ⟨error, h⟩ := h
      unfold Rule.someChars at h
      cases hc : c.rest with
      | nil => rfl
      | cons a more =>
        cases ha : test a with
        | false => exact ha
        | true => rw [hc, List.takeWhile_cons_of_pos ha] at h; exact nomatch h
    refine Refuses.someChars ?_ d.toPlace
    rw [hcd.eq]
    exact head?_append_blank htest hhead

end Characters

/-! ### The words of expressions -/

theorem token {m : String} (hm : isSolid m = true) : Lexical 1 (token m) := (text hm).named

theorem keyword {w : String} (hw : isSolid w = true) : Lexical 1 (keyword w) :=
  (token hw).unfollowed rfl

theorem digits : Lexical 1 digits := someChars (by decide)

theorem number : Lexical 1 number := by
  refine inContext (digits.bind fun _ => bind (optional ?_) fun _ => pure _)
  exact (text (by decide)).weaken.bind fun _ => digits.weaken

theorem boolean : Lexical 1 boolean := by
  refine inContext (orElse ?_ ?_)
  · exact (keyword (by decide)).bind fun _ => pure true
  · exact (keyword (by decide)).bind fun _ => pure false

theorem identifier : Lexical 1 identifier := by
  refine inContext ((someChars (by decide +kernel)).bind fun _ => ?_)
  exact (charsWhile (by decide +kernel)).bind fun _ => pure _

theorem variableName : Lexical 1 variableName := identifier.checked

theorem stringLiteral_ok {c : Cursor} {inside body after : List Char}
    (hc : c.rest = '"' :: inside) (hbody : stringBody inside = some (body, after)) :
    ∃ c', Rule.stringLiteral c = .ok (.ofList body) c' ∧ c'.rest = after := by
  obtain ⟨read, hread, -⟩ := stringBody_append hbody
  refine ⟨c.advance (c.rest.length - after.length), ?_, ?_⟩
  · unfold Rule.stringLiteral
    simp only [hc, hbody]
  · have hlen : c.rest.length - after.length = ('"' :: read).length := by
      rw [hc, hread, List.length_cons, List.length_append, List.length_cons]
      omega
    rw [Cursor.rest_advance, hlen, hc, hread]
    exact List.drop_left

theorem of_stringLiteral_ok {c c' : Cursor} {v : String} (h : Rule.stringLiteral c = .ok v c') :
    ∃ inside body, c.rest = '"' :: inside ∧ stringBody inside = some (body, c'.rest) ∧
      v = .ofList body := by
  have hout := h
  unfold Rule.stringLiteral at h
  split at h
  · next inside hc =>
    split at h
    · next body after hbody =>
      obtain ⟨e, he, hafter⟩ := stringLiteral_ok hc hbody
      cases hout.symm.trans he
      exact ⟨inside, body, hc, hafter.symm ▸ hbody, rfl⟩
    · exact nomatch h
  · exact nomatch h

theorem stringLiteral : Lexical 1 stringLiteral := by
  refine ⟨fun rest n c d hcd v c' h => ?_, fun rest n c d hcd h => ?_⟩
  · obtain ⟨inside, body, hc, hbody, rfl⟩ := of_stringLiteral_ok h
    obtain ⟨read, hread, hmore⟩ := stringBody_append hbody
    obtain ⟨d', hd, hrest⟩ := stringLiteral_ok (c := d) (by rw [hcd.eq, hc]; rfl)
      (hmore (' ' :: rest))
    refine ⟨d', hd, ?_, ?_, hrest⟩
    · have hlt := hcd.lt
      rw [hc, hread, List.length_cons, List.length_append] at hlt
      omega
    · have hclosed := hcd.closed
      rw [hc] at hclosed
      cases hclosed with
      | char hquote => exact absurd rfl hquote
      | string hbody' htext =>
        cases hbody.symm.trans hbody'
        exact htext
  · obtain ⟨error, h⟩ := h
    refine Refuses.stringLiteral ?_ d.toPlace
    rw [hcd.eq]
    intro hhead
    cases hc : c.rest with
    | nil => rw [hc] at hhead; exact nomatch hhead
    | cons a inside =>
      rw [hc] at hhead
      cases Option.some.inj hhead
      unfold Rule.stringLiteral at h
      simp only [hc] at h
      cases hbody : stringBody inside with
      | none => simp [hbody] at h
      | some => simp [hbody] at h

/-- A sign that does not begin a comment. -/
theorem sign {op : BinaryOperator} (hop : isSolid op.symbol = true) : Lexical 1 (sign op) :=
  (text hop).bind fun _ => pure op

/-- A slash is a division where no other slash follows, also behind the text. -/
theorem division : Lexical 1 (do
    let op ← Rule.sign .divide
    Rule.notAhead (Rule.text "/")
    Pure.pure op) := by
  have hsign (rest : List Char) :
      Couples (Behind rest) (Behind rest) (Rule.sign .divide) (Rule.sign .divide) :=
    (Couples.text "/" rest).bind fun _ => .pure _
  have hslash (rest : List Char) : Balks (Behind rest) (Rule.text "/") (Rule.text "/") :=
    .text (by decide)
  refine ⟨fun rest n c d hcd v c' h => ?_, fun rest n c d hcd => ?_⟩
  · have hall := (hsign rest).bind fun op => (Couples.notAhead (hslash rest)).bind fun _ => .pure op
    obtain ⟨d', hd, hrest⟩ := hall c d hcd.eq v c' h
    obtain ⟨op, e, hop, h⟩ := bind_ok_iff.mp h
    obtain ⟨_, _, htext, hpure⟩ := bind_ok_iff.mp hop
    cases hpure
    obtain ⟨_, _, hahead, hpure⟩ := bind_ok_iff.mp h
    cases hpure
    obtain ⟨rfl, hrefused⟩ := notAhead_ok_iff.mp hahead
    have hc : c.rest = '/' :: c'.rest := rest_of_text htext
    have hhead : c'.rest.head? ≠ some '/' := by
      intro hhead
      obtain ⟨more, hmore⟩ := List.head?_eq_some_iff.mp hhead
      exact refused_text_iff.mp hrefused ⟨more, hmore.symm⟩
    have hlt := hcd.lt
    have hclosed := hcd.closed
    rw [hc] at hlt hclosed
    exact ⟨d', hd, Nat.lt_of_succ_lt_succ hlt, (closed_slash_iff hhead).mp hclosed, hrest⟩
  · have hdivide : Balks (Behind rest) (Rule.sign .divide) (Rule.sign .divide) :=
      (hslash rest).bind_commits fun _ => .pure _
    refine hdivide.bind (hsign rest) (fun op => ?_) c d hcd.eq
    exact (Balks.notAhead (Couples.text "/" rest)).bind_commits fun _ => .pure op

end Lexical

/-! ## Blanks around a word -/

section Spaced

variable {p q : Rule α} {c c' : Cursor} {v : α}

theorem Refuses.of_spaced {input : List Char} (hi : Settled input)
    (h : Refuses (Rule.spaced p) input) : Refuses p input := by
  intro place
  obtain ⟨error, hp⟩ := refused_spaced_iff.mp (h place)
  have hskip : (Cursor.withRest place input).skip = .withRest place input := hi place
  exact ⟨error, by rwa [hskip] at hp⟩

variable {rest : List Char} (hr : Settled rest) {m n : Nat}

include hr

theorem Couples.spaced (hp : Couples (Facing rest m) (Beside rest n) p q)
    (hfails : ∀ c : Cursor, c.rest = [] → Fails p c) :
    Couples (Beside rest m) (Ready rest n) (Rule.spaced p) (Rule.spaced q) := by
  intro c d hcd v c' h
  obtain ⟨e, hp', rfl⟩ := spaced_ok_iff.mp h
  rcases hcd.skip hr with hfacing | hpast
  · obtain ⟨d', hd, hnext⟩ := hp _ _ hfacing v e hp'
    exact ⟨d'.skip, spaced_ok_iff.mpr ⟨d', hd, rfl⟩, hnext.skip hr⟩
  · exact absurd hp' (hfails _ hpast.nil v e)

theorem Balks.spaced (hp : Balks (Facing rest n) p q) :
    Balks (Ahead rest n) (Rule.spaced p) (Rule.spaced q) :=
  fun _ _ hcd h => refused_spaced_iff.mpr (hp _ _ (hcd.skip hr) (refused_spaced_iff.mp h))

/-- Where `rest` is refused, a refusal at the end of the text is one in front of `rest`. -/
theorem Balks.spaced_of_refuses (hp : Balks (Facing rest n) p q) (hq : Refuses q rest) :
    Balks (Beside rest n) (Rule.spaced p) (Rule.spaced q) := by
  intro c d hcd h
  refine refused_spaced_iff.mpr ?_
  rcases hcd.skip hr with hfacing | hpast
  · exact hp _ _ hfacing (refused_spaced_iff.mp h)
  · have hrefused := hq d.skip.toPlace
    rw [← hpast.eq] at hrefused
    exact hrefused

end Spaced

end Rule

end Storybook.Script
