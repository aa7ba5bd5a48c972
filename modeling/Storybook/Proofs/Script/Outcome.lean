/-
# `Storybook.Proofs.Script.Outcome` — when a rule reads something, and when it refuses

For each way to put rules together: where the whole reads something, and where it refuses, told by
its parts.  Where neither is the case the whole aborts, of which nothing is said here.
-/
import Storybook.Proofs.Script.Reading
import Storybook.Proofs.Script.Yield

namespace Storybook.Script.Rule

variable {p q : Rule α} {f : α → Rule β} {c c' : Cursor} {v : α} {w : β}

/-! ## Sequences and alternatives -/

theorem bind_ok_iff : (p >>= f) c = .ok w c' ↔ ∃ v e, p c = .ok v e ∧ f v e = .ok w c' := by
  rw [bind_apply]
  cases p c with
  | ok v e => exact ⟨fun h => ⟨v, e, rfl, h⟩, fun ⟨_, _, h, hf⟩ => by cases h; exact hf⟩
  | refuse | abort => simp

theorem refused_bind_iff :
    Refused (p >>= f) c ↔ Refused p c ∨ ∃ v e, p c = .ok v e ∧ Refused (f v) e := by
  unfold Refused
  rw [bind_apply]
  cases p c with
  | ok v e =>
    refine ⟨fun h => .inr ⟨v, e, rfl, h⟩, ?_⟩
    rintro (⟨_, h⟩ | ⟨_, _, h, hf⟩)
    · exact nomatch h
    · cases h
      exact hf
  | refuse | abort => simp

theorem orElse_ok_iff :
    (p <|> q) c = .ok v c' ↔ p c = .ok v c' ∨ Refused p c ∧ q c = .ok v c' := by
  unfold Refused
  rw [orElse_apply]
  cases p c with
  | ok | abort => simp
  | refuse e => cases q c <;> simp

theorem refused_orElse_iff : Refused (p <|> q) c ↔ Refused p c ∧ Refused q c := by
  unfold Refused
  rw [orElse_apply]
  cases p c with
  | ok | abort => simp
  | refuse e => cases q c <;> simp

theorem optional_ok_iff {o : Option α} : optional p c = .ok o c' ↔
    (∃ v, o = some v ∧ p c = .ok v c') ∨ o = none ∧ c' = c ∧ Refused p c := by
  unfold Refused optional
  cases p c with
  | ok v e =>
    simp only [Outcome.ok.injEq, reduceCtorEq, exists_false, and_false, or_false]
    exact ⟨fun ⟨ho, he⟩ => ⟨v, ho.symm, rfl, he⟩, fun ⟨_, ho, hv, he⟩ => ⟨hv ▸ ho.symm, he⟩⟩
  | refuse | abort => simp [eq_comm]

theorem Commits.optional (p : Rule α) : Commits (optional p) := by
  rintro c ⟨error, h⟩
  unfold Rule.optional at h
  cases hp : p c <;> rw [hp] at h <;> exact nomatch h

/-! ## Repetition -/

theorem many_ok_iff {vs : List α} : many p c = .ok vs c' ↔
    (vs = [] ∧ c' = c ∧ Refused p c) ∨ ∃ v others e, vs = v :: others ∧ p c = .ok v e ∧
      e.rest.length < c.rest.length ∧ many p e = .ok others c' := by
  unfold Refused
  rw [many]
  cases p c with
  | refuse | abort => simp [eq_comm]
  | ok v e =>
    by_cases hlt : e.rest.length < c.rest.length
    · cases hmany : many p e with
      | ok others last =>
        simp only [if_pos hlt, hmany, Outcome.ok.injEq, reduceCtorEq, exists_false, and_false,
          false_or]
        constructor
        · rintro ⟨hvs, hlast⟩
          exact ⟨v, others, e, hvs.symm, ⟨rfl, rfl⟩, hlt, by rw [hmany, hlast]⟩
        · rintro ⟨_, _, _, rfl, ⟨rfl, rfl⟩, -, h⟩
          cases hmany.symm.trans h
          exact ⟨rfl, rfl⟩
      | refuse | abort =>
        simp only [if_pos hlt, hmany, Outcome.ok.injEq, reduceCtorEq, exists_false, and_false,
          false_or, false_iff]
        rintro ⟨_, _, _, -, ⟨-, rfl⟩, -, h⟩
        cases hmany.symm.trans h
    · simp only [if_neg hlt, Outcome.ok.injEq, reduceCtorEq, exists_false, and_false, false_or,
        false_iff]
      rintro ⟨_, _, _, -, ⟨-, rfl⟩, h, -⟩
      exact hlt h

/-- A repetition refuses where a rule reads nothing, or after that. -/
theorem refused_of_many (h : Refused (many p) c) :
    ∃ v e, p c = .ok v e ∧ (e.rest.length < c.rest.length → Refused (many p) e) := by
  obtain ⟨error, h⟩ := h
  rw [many] at h
  cases hp : p c with
  | refuse | abort =>
    rw [hp] at h
    cases h
  | ok v e =>
    refine ⟨v, e, rfl, fun hlt => ?_⟩
    rw [hp] at h
    simp only [if_pos hlt] at h
    cases hmany : many p e with
    | refuse error' => exact ⟨error', hmany⟩
    | ok | abort =>
      rw [hmany] at h
      cases h

/-! ## Other errors, and conditions -/

theorem cut_ok_iff : cut p c = .ok v c' ↔ p c = .ok v c' := by
  unfold cut
  cases p c <;> simp

section Named

variable {what : String}

theorem inContext_ok_iff : inContext what p c = .ok v c' ↔ p c = .ok v c' := by
  unfold inContext
  cases p c <;> simp [Outcome.mapError]

theorem refused_inContext_iff : Refused (inContext what p) c ↔ Refused p c := by
  unfold Refused inContext
  cases p c <;> simp [Outcome.mapError]

theorem named_ok_iff : named what p c = .ok v c' ↔ p c = .ok v c' := by
  unfold named
  cases p c <;> simp

theorem refused_named_iff : Refused (named what p) c ↔ Refused p c := by
  unfold Refused named
  cases p c <;> simp

theorem checked_ok_iff {test : α → Bool} :
    checked what test p c = .ok v c' ↔ p c = .ok v c' ∧ test v = true := by
  unfold checked
  cases p c with
  | ok u e =>
    by_cases h : test u = true
    · simp only [h, if_true, Outcome.ok.injEq]
      exact ⟨fun he => ⟨he, he.1 ▸ h⟩, And.left⟩
    · simp only [h, Outcome.ok.injEq]
      exact ⟨fun he => (nomatch he), fun he => absurd (he.1.1 ▸ he.2) h⟩
  | refuse | abort => simp

theorem refused_checked_iff {test : α → Bool} : Refused (checked what test p) c ↔
    Refused p c ∨ ∃ v e, p c = .ok v e ∧ test v = false := by
  unfold Refused checked
  cases p c with
  | ok u e => by_cases h : test u = true <;> simp [h]
  | refuse | abort => simp

theorem unfollowed_ok_iff {test : Char → Bool} :
    unfollowed what test p c = .ok v c' ↔ p c = .ok v c' ∧ c'.rest.head?.any test = false := by
  unfold unfollowed
  cases p c with
  | ok u e =>
    by_cases h : e.rest.head?.any test = true
    · simp only [h, if_true, Outcome.ok.injEq]
      exact ⟨fun he => (nomatch he), fun he => absurd h (by rw [he.1.2, he.2]; decide)⟩
    · simp only [h, Bool.false_eq_true, if_false, Outcome.ok.injEq]
      exact ⟨fun he => ⟨he, he.2 ▸ Bool.not_eq_true _ ▸ h⟩, And.left⟩
  | refuse | abort => simp

theorem refused_unfollowed_iff {test : Char → Bool} : Refused (unfollowed what test p) c ↔
    Refused p c ∨ ∃ v e, p c = .ok v e ∧ e.rest.head?.any test = true := by
  unfold Refused unfollowed
  cases p c with
  | ok u e =>
    by_cases h : e.rest.head?.any test = true
    · simp only [h, if_true]
      exact ⟨fun _ => .inr ⟨u, e, rfl, h⟩, fun _ => ⟨_, rfl⟩⟩
    · simp [h]
  | refuse | abort => simp

end Named

theorem notAhead_ok_iff {u : Unit} : notAhead p c = .ok u c' ↔ c' = c ∧ Refused p c := by
  unfold Refused notAhead
  cases p c <;> simp [eq_comm]

theorem refused_notAhead_iff : Refused (notAhead p) c ↔ ∃ v e, p c = .ok v e := by
  unfold Refused notAhead
  cases p c <;> simp

/-! ## Texts and blanks -/

theorem rest_of_text {m : String} {u : Unit} (h : text m c = .ok u c') :
    c.rest = m.toList ++ c'.rest := by
  unfold text at h
  split at h
  · next hm =>
    cases h
    obtain ⟨after, hafter⟩ := List.isPrefixOf_iff_prefix.mp hm
    rw [Cursor.rest_advance, ← hafter, ← String.length_toList, List.drop_left]
  · exact nomatch h

theorem refused_text_iff {m : String} : Refused (text m) c ↔ ¬ m.toList <+: c.rest := by
  unfold Refused text
  rw [← List.isPrefixOf_iff_prefix]
  by_cases h : m.toList.isPrefixOf c.rest = true <;> simp [h]

theorem skip_eq (c : Cursor) : skip c = .ok () c.skip := rfl

theorem Commits.skip : Commits skip := fun _ ⟨_, h⟩ => nomatch h

theorem spaced_ok_iff : spaced p c = .ok v c' ↔ ∃ e, p c.skip = .ok v e ∧ c' = e.skip := by
  refine ⟨fun h => ?_, ?_⟩
  · obtain ⟨_, _, hskip, h⟩ := bind_ok_iff.mp h
    cases hskip
    obtain ⟨u, e, hp, h⟩ := bind_ok_iff.mp h
    obtain ⟨_, _, hskip, hpure⟩ := bind_ok_iff.mp h
    cases hskip
    cases hpure
    exact ⟨e, hp, rfl⟩
  · rintro ⟨e, hp, rfl⟩
    refine bind_ok_iff.mpr ⟨(), c.skip, skip_eq c, bind_ok_iff.mpr ⟨v, e, hp, ?_⟩⟩
    exact bind_ok_iff.mpr ⟨(), e.skip, skip_eq e, rfl⟩

theorem refused_spaced_iff : Refused (spaced p) c ↔ Refused p c.skip := by
  refine ⟨fun h => ?_, fun h => refused_bind_iff.mpr (.inr ⟨(), c.skip, skip_eq c, h.bind⟩)⟩
  rcases refused_bind_iff.mp h with h | ⟨_, _, hskip, h⟩
  · exact absurd h (Commits.skip c)
  · cases hskip
    exact h.of_bind fun v => Commits.skip.bind fun _ => .pure v

theorem symbol_ok_iff {m : String} {u : Unit} :
    symbol m c = .ok u c' ↔ ∃ e, text m c.skip = .ok u e ∧ c' = e.skip := by
  refine spaced_ok_iff.trans ?_
  simp only [token, named_ok_iff]

theorem Reads.ok_at {input after : List Char} (h : Reads p input v after) (hc : c.rest = input) :
    ∃ d, p c = .ok v d ∧ d.rest = after := by
  subst hc
  obtain ⟨place, hp⟩ := h c.toPlace
  exact ⟨_, hp, rfl⟩

end Storybook.Script.Rule
