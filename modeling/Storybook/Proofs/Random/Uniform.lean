/-
# `Storybook.Proofs.Random.Uniform` — every number comes from equally many words

Let `n` be the count of the numbers to choose from, and `s` such that `n · 2 ^ s` is less than
`2 ^ 64` but at least half of it.  A word `v` gives the number `k` if the product `v · n` is one of
the first `n · 2 ^ s` numbers from `k · 2 ^ 64` on:

    k · 2 ^ 64  ≤  v · n  <  k · 2 ^ 64 + n · 2 ^ s

and if there is no such `k`, the word is refused.  The multiples of `n` in these numbers are as many
as the numbers `n · 2 ^ s` have, which is `2 ^ s`, wherever they begin.  So `2 ^ s` words give the
number `k` (`uniform_accept?`), and this does not depend on `k`.

An integer between two bounds is such a number added to the lower one, and an index is such a
number itself.  The count of all integers of 64 bits is no word, and becomes zero; there each word
gives the integer that it is, and `2 ^ 64` has a share of one word as well.
-/
import Mathlib.Data.Set.Card
import Mathlib.Order.Interval.Finset.Nat
import Storybook.Proofs.Random.Draw

namespace Storybook

/-! ## Words of a source -/

namespace WordSource

variable {σ : Type} [WordSource σ]

/-- The source behind its first words. -/
def after (s : σ) : Nat → σ
  | 0 => s
  | k + 1 => after (next s).2 k

/-- The word of a source behind so many others. -/
def word (s : σ) (k : Nat) : UInt64 := (next (after s k)).1

end WordSource

open WordSource

namespace Random

/-! ## Choices -/

/-- A choice is uniform: it comes to outcomes alone, and to each of them by as many words. -/
structure Uniform {α : Type} (choice? : UInt64 → Option α) (outcomes : Set α) (share : Nat) :
    Prop where
  mem : ∀ {word x}, choice? word = some x → x ∈ outcomes
  ncard : ∀ x ∈ outcomes, {word | choice? word = some x}.ncard = share

/-- The count of words for each of so many outcomes. -/
def share (count : Nat) : Nat := 2 ^ (63 - count.log2)

/-- The integer that is a number above another one. -/
def above (low : Int64) (offset : UInt64) : Int64 := (low.toUInt64 + offset).toInt64

/-- The integer between two bounds that a word gives, unless the word is refused. -/
def integer? (low high : Int64) (word : UInt64) : Option Int64 :=
  let size := high.toUInt64 - low.toUInt64 + 1
  if size = 0 then some word.toInt64 else (accept? size word).map (above low)

theorem integer?_of_size {low high : Int64} (h : high.toUInt64 - low.toUInt64 + 1 ≠ 0) :
    integer? low high =
      fun word => (accept? (high.toUInt64 - low.toUInt64 + 1) word).map (above low) :=
  funext fun _ => if_neg h

/-- The index below a count that a word gives, unless the word is refused. -/
def index? (count : Nat) (word : UInt64) : Option Nat :=
  (accept? (UInt64.ofNat count) word).map UInt64.toNat

section Choice

variable {α β σ : Type} [WordSource σ] {choice? : UInt64 → Option α}

/-- Whether an outcome is that of the first word a choice does not refuse, and what is left. -/
def Draws (choice? : UInt64 → Option α) (s : σ) (x : α) (t : σ) : Prop :=
  ∃ k < UInt64.size, (∀ i < k, choice? (word s i) = none) ∧ choice? (word s k) = some x ∧
    t = after s (k + 1)

/-- Whether a choice refuses all words that are tried. -/
def Refuses (choice? : UInt64 → Option α) (s : σ) : Prop :=
  ∀ i < UInt64.size, choice? (word s i) = none

theorem Draws.map {s t : σ} {x : α} (f : α → β) (h : Draws choice? s x t) :
    Draws (fun word => (choice? word).map f) s (f x) t := by
  obtain ⟨k, hk, hrefused, haccepted, hrest⟩ := h
  refine ⟨k, hk, fun i hi => ?_, ?_, hrest⟩
  · exact congrArg (Option.map f) (hrefused i hi)
  · exact congrArg (Option.map f) haccepted

theorem Refuses.map {s : σ} (f : α → β) (h : Refuses choice? s) :
    Refuses (fun word => (choice? word).map f) s :=
  fun i hi => congrArg (Option.map f) (h i hi)

/-- Outcomes may be given other names, as long as no two of them get the same one. -/
theorem Uniform.map {outcomes : Set α} {count : Nat} (h : Uniform choice? outcomes count)
    {f : α → β} (hf : f.Injective) :
    Uniform (fun word => (choice? word).map f) (f '' outcomes) count where
  mem hword := by
    obtain ⟨x, hx, rfl⟩ := Option.map_eq_some_iff.mp hword
    exact ⟨x, h.mem hx, rfl⟩
  ncard := by
    rintro - ⟨x, hx, rfl⟩
    have hwords : {word | (choice? word).map f = some (f x)} = {word | choice? word = some x} := by
      ext word
      exact (Option.map_injective hf).eq_iff (b := some x)
    rw [hwords, h.ncard x hx]

end Choice

/-! ## Words for a number below a size -/

/-- Words in a row, as many as they are. -/
theorem ncard_words {first count : Nat} (h : first + count ≤ UInt64.size) :
    {word : UInt64 | first ≤ word.toNat ∧ word.toNat < first + count}.ncard = count := by
  have hinjective : Function.Injective UInt64.toNat := fun _ _ => UInt64.toNat_inj.mp
  have himage : UInt64.toNat '' {word | first ≤ word.toNat ∧ word.toNat < first + count} =
      Finset.Ico first (first + count) := by
    ext n
    rw [Finset.coe_Ico]
    constructor
    · rintro ⟨word, hword, rfl⟩
      exact hword
    · rintro ⟨hle, hlt⟩
      have hword : (UInt64.ofNat n).toNat = n := UInt64.toNat_ofNat_of_lt' (by omega)
      exact ⟨UInt64.ofNat n, ⟨hword.symm ▸ hle, hword.symm ▸ hlt⟩, hword⟩
  rw [← Set.ncard_image_of_injective _ hinjective, himage, Set.ncard_coe_finset, Nat.card_Ico,
    Nat.add_sub_cancel_left]

/-- Multiples in a row of as many numbers as `count` of them have. -/
theorem exists_multiples {n : Nat} (hn : 0 < n) (start count : Nat) :
    ∃ first, ∀ v, start ≤ v * n ∧ v * n < start + n * count ↔ first ≤ v ∧ v < first + count := by
  obtain ⟨first, hfirst⟩ : ∃ first, ∀ v, start ≤ v * n ↔ first ≤ v := by
    refine ⟨(start + (n - 1)) / n, fun v => ?_⟩
    rw [Nat.div_le_iff_le_mul_add_pred hn, Nat.mul_comm n v]
    omega
  refine ⟨first, fun v => and_congr (hfirst v) ?_⟩
  by_cases hv : v < count
  · have hmul : v * n < n * count := by
      rw [Nat.mul_comm]
      exact Nat.mul_lt_mul_of_pos_left hv hn
    omega
  · obtain ⟨w, rfl⟩ := Nat.exists_eq_add_of_le (Nat.le_of_not_lt hv)
    have hmul : (count + w) * n = w * n + n * count := by
      rw [Nat.add_mul, Nat.mul_comm count n, Nat.add_comm]
    have hw := hfirst w
    omega

section Size

variable {size : UInt64} (hsize : size ≠ 0)
include hsize

theorem toNat_pos : 0 < size.toNat :=
  Nat.pos_of_ne_zero fun h => hsize (UInt64.toNat_inj.mp h)

/-- The zone of a size is within 64 bits. -/
theorem zone_lt : zone size + 1 = size.toNat * share size.toNat ∧
    size.toNat * share size.toNat ≤ UInt64.size := by
  have hpos := toNat_pos hsize
  have hlog : size.toNat.log2 < 64 := (Nat.log2_lt hpos.ne').mpr size.toNat_lt
  have hzone : zone size = size.toNat * share size.toNat - 1 := by
    rw [zone, Nat.shiftLeft_eq, share]
  have hshare : 0 < share size.toNat := Nat.two_pow_pos _
  have hmul : 0 < size.toNat * share size.toNat := Nat.mul_pos hpos hshare
  refine ⟨by omega, ?_⟩
  have hexponent : size.toNat.log2 + 1 + (63 - size.toNat.log2) = 64 := by omega
  calc size.toNat * share size.toNat
    _ ≤ 2 ^ (size.toNat.log2 + 1) * 2 ^ (63 - size.toNat.log2) :=
      Nat.mul_le_mul_right _ Nat.lt_log2_self.le
    _ = 2 ^ 64 := by rw [← Nat.pow_add, hexponent]

/-- A word gives a number if its product lies in the zone behind the multiple of `2 ^ 64`. -/
theorem accept?_eq_some {word k : UInt64} : accept? size word = some k ↔
    k.toNat * UInt64.size ≤ word.toNat * size.toNat ∧
      word.toNat * size.toNat < k.toNat * UInt64.size + size.toNat * share size.toNat := by
  obtain ⟨hzone, hle⟩ := zone_lt hsize
  have hquotient : word.toNat * size.toNat / UInt64.size < UInt64.size := by
    refine Nat.div_lt_of_lt_mul ?_
    exact Nat.mul_lt_mul'' word.toNat_lt size.toNat_lt
  have hnumber : (UInt64.ofNat (word.toNat * size.toNat / UInt64.size)).toNat =
      word.toNat * size.toNat / UInt64.size := UInt64.toNat_ofNat_of_lt' hquotient
  have hword : accept? size word = some k ↔
      word.toNat * size.toNat % UInt64.size ≤ zone size ∧
        word.toNat * size.toNat / UInt64.size = k.toNat := by
    rw [accept?]
    split
    · next haccepted =>
      simp only [Option.some.injEq, ← UInt64.toNat_inj, hnumber, haccepted, true_and]
    · next hrefused => simp only [hrefused, false_and, reduceCtorEq]
  rw [hword]
  generalize word.toNat * size.toNat = product at *
  generalize size.toNat * share size.toNat = width at *
  unfold UInt64.size at *
  omega

theorem uniform_accept? : Uniform (accept? size) {k | k < size} (share size.toNat) where
  mem {word k} h := by
    have hle := accept?_le h
    have hpos := toNat_pos hsize
    exact UInt64.lt_iff_toNat_lt.mpr (by omega)
  ncard k hk := by
    obtain ⟨first, hfirst⟩ :=
      exists_multiples (toNat_pos hsize) (k.toNat * UInt64.size) (share size.toNat)
    have hwords : {word | accept? size word = some k} =
        {word | first ≤ word.toNat ∧ word.toNat < first + share size.toNat} := by
      ext word
      exact (accept?_eq_some hsize).trans (hfirst word.toNat)
    -- the last of them is a word, since its product is less than that of `2 ^ 64`
    have hshare : 0 < share size.toNat := Nat.two_pow_pos _
    obtain ⟨-, hlast⟩ := (hfirst (first + share size.toNat - 1)).mpr (by omega)
    have hmost : (first + share size.toNat - 1) * size.toNat < UInt64.size * size.toNat :=
      calc (first + share size.toNat - 1) * size.toNat
        _ < k.toNat * UInt64.size + size.toNat * share size.toNat := hlast
        _ ≤ k.toNat * UInt64.size + UInt64.size := Nat.add_le_add_left (zone_lt hsize).2 _
        _ = UInt64.size * (k.toNat + 1) := by rw [Nat.mul_comm UInt64.size, Nat.succ_mul]
        _ ≤ UInt64.size * size.toNat := Nat.mul_le_mul_left _ (UInt64.lt_iff_toNat_lt.mp hk)
    have hlt := Nat.lt_of_mul_lt_mul_right hmost
    rw [hwords, ncard_words (by omega)]

end Size

/-! ## Choices from a source -/

section Source

variable {σ : Type} [WordSource σ]

theorem firstAccepted_cases {size n : UInt64} {t : σ} (tries : Nat) (s : σ)
    (h : firstAccepted size tries s = (n, t)) :
    (∃ k < tries, (∀ i < k, accept? size (word s i) = none) ∧
        accept? size (word s k) = some n ∧ t = after s (k + 1)) ∨
      ∀ i < tries, accept? size (word s i) = none := by
  induction tries generalizing s with
  | zero => exact .inr fun i hi => absurd hi (Nat.not_lt_zero i)
  | succ tries ih =>
    rw [firstAccepted] at h
    cases haccept : accept? size (WordSource.next s).1 with
    | some k =>
      simp only [haccept] at h
      obtain ⟨rfl, rfl⟩ := Prod.mk.inj h
      exact .inl ⟨0, Nat.succ_pos _, fun i hi => absurd hi (Nat.not_lt_zero i), haccept, rfl⟩
    | none =>
      simp only [haccept] at h
      -- the words of the source are the refused one and those behind it
      have hcons : ∀ {count}, (∀ i < count, accept? size (word (WordSource.next s).2 i) = none) →
          ∀ i < count + 1, accept? size (word s i) = none := by
        intro count hrefused i hi
        cases i with
        | zero => exact haccept
        | succ i => exact hrefused i (Nat.lt_of_succ_lt_succ hi)
      rcases ih _ h with ⟨k, hk, hrefused, haccepted, hrest⟩ | hrefused
      · exact .inl ⟨k + 1, Nat.succ_lt_succ hk, hcons hrefused, haccepted, hrest⟩
      · exact .inr (hcons hrefused)

theorem below_cases {size n : UInt64} {s t : σ} (h : below size s = (n, t)) :
    Draws (accept? size) s n t ∨ Refuses (accept? size) s :=
  firstAccepted_cases UInt64.size s h

/-- An index is that of the first word that is not refused. -/
theorem index_cases {count i : Nat} {s t : σ} (h : index count s = (i, t)) :
    Draws (index? count) s i t ∨ Refuses (index? count) s := by
  rw [index] at h
  cases hbelow : below (UInt64.ofNat count) s with
  | mk n rest =>
    rw [hbelow] at h
    obtain ⟨rfl, rfl⟩ := Prod.mk.inj h
    exact (below_cases hbelow).imp (·.map UInt64.toNat) (·.map UInt64.toNat)

/-- An integer between bounds is that of the first word that is not refused. -/
theorem between_cases {low high n : Int64} {s t : σ} (h : between low high s = (n, t)) :
    Draws (integer? low high) s n t ∨ Refuses (integer? low high) s := by
  rw [between] at h
  by_cases hsize : high.toUInt64 - low.toUInt64 + 1 = 0
  · rw [if_pos hsize] at h
    obtain ⟨rfl, rfl⟩ := Prod.mk.inj h
    exact .inl ⟨0, by decide, fun i hi => absurd hi (Nat.not_lt_zero i), if_pos hsize, rfl⟩
  · rw [if_neg hsize] at h
    rw [integer?_of_size hsize]
    cases hbelow : below (high.toUInt64 - low.toUInt64 + 1) s with
    | mk offset rest =>
      rw [hbelow] at h
      obtain ⟨rfl, rfl⟩ := Prod.mk.inj h
      exact (below_cases hbelow).imp (·.map (above low)) (·.map (above low))

end Source

/-! ## Indices -/

/-- Indices below a count are given by as many words each. -/
theorem uniform_index? {count : Nat} (hpos : 0 < count) (hcount : count < UInt64.size) :
    Uniform (index? count) {i | i < count} (share count) := by
  have hword : (UInt64.ofNat count).toNat = count := UInt64.toNat_ofNat_of_lt' hcount
  have hsize : UInt64.ofNat count ≠ 0 := by
    intro hzero
    rw [hzero] at hword
    exact hpos.ne hword
  have hinjective : Function.Injective UInt64.toNat := fun _ _ => UInt64.toNat_inj.mp
  have himage : UInt64.toNat '' {k | k < UInt64.ofNat count} = {i | i < count} := by
    ext i
    constructor
    · rintro ⟨k, hk, rfl⟩
      exact (UInt64.lt_iff_toNat_lt.mp hk).trans_eq hword
    · intro hi
      have hi' : (UInt64.ofNat i).toNat = i := UInt64.toNat_ofNat_of_lt' (Nat.lt_trans hi hcount)
      refine ⟨UInt64.ofNat i, UInt64.lt_iff_toNat_lt.mpr ?_, hi'⟩
      rw [hi', hword]
      exact hi
  have huniform := (uniform_accept? hsize).map hinjective
  rw [himage, hword] at huniform
  exact huniform

/-! ## Integers -/

/-- The integer of a word with a sign, by the word without one. -/
theorem toInt_eq (x : Int64) : x.toInt =
    if 2 * x.toUInt64.toNat < 2 ^ 64 then (x.toUInt64.toNat : Int)
    else x.toUInt64.toNat - 2 ^ 64 :=
  BitVec.toInt_eq_toNat_cond x.toBitVec

section Bounds

variable {low high : Int64}

/-- The count of integers from the lower bound on. -/
theorem toNat_sub {x : Int64} (h : low ≤ x) :
    ((x.toUInt64 - low.toUInt64).toNat : Int) = x.toInt - low.toInt := by
  have hle := Int64.le_iff_toInt_le.mp h
  have hlow := toInt_eq low
  have hx := toInt_eq x
  have hlow' := low.toUInt64.toNat_lt
  have hx' := x.toUInt64.toNat_lt
  rw [UInt64.toNat_sub]
  omega

/-- The size of the bounds is the count of integers between them, less `2 ^ 64` if it is that. -/
theorem toNat_size (h : low ≤ high) :
    ((high.toUInt64 - low.toUInt64 + 1).toNat : Int) = (high.toInt - low.toInt + 1) % 2 ^ 64 := by
  have hsub := toNat_sub h
  have hone : (1 : UInt64).toNat = 1 := rfl
  rw [UInt64.toNat_add, hone]
  omega

/-- A number added to the lower bound, as long as this does not go beyond 64 bits. -/
theorem toInt_above {offset : UInt64} (h : low.toInt + offset.toNat < 2 ^ 63) :
    (above low offset).toInt = low.toInt + offset.toNat := by
  have hsum : (above low offset).toUInt64.toNat =
      (low.toUInt64.toNat + offset.toNat) % 2 ^ 64 := UInt64.toNat_add _ _
  have hlow := toInt_eq low
  have hlow' := low.toUInt64.toNat_lt
  rw [toInt_eq, hsum]
  omega

theorem above_sub (low n : Int64) : above low (n.toUInt64 - low.toUInt64) = n := by
  rw [above, UInt64.add_comm, UInt64.sub_add_cancel]
  rfl

theorem above_injective (low : Int64) : (above low).Injective := by
  intro k l heq
  have hsum : low.toUInt64 + k = low.toUInt64 + l := congrArg Int64.toUInt64 heq
  exact (UInt64.add_right_inj _).mp hsum

/-- The integers between two bounds are the numbers below the size, above the lower bound. -/
theorem image_above (h : low ≤ high) (hsize : high.toUInt64 - low.toUInt64 + 1 ≠ 0) :
    above low '' {k | k < high.toUInt64 - low.toUInt64 + 1} = {n | low ≤ n ∧ n ≤ high} := by
  have hpos := toNat_pos hsize
  have hcount := toNat_size h
  have hlow := low.le_toInt
  have hhigh := high.toInt_lt
  have hle := Int64.le_iff_toInt_le.mp h
  ext n
  constructor
  · rintro ⟨k, hk, rfl⟩
    have hk := UInt64.lt_iff_toNat_lt.mp hk
    have hinteger : (above low k).toInt = low.toInt + k.toNat := toInt_above (by omega)
    exact ⟨Int64.le_iff_toInt_le.mpr (by omega), Int64.le_iff_toInt_le.mpr (by omega)⟩
  · rintro ⟨hfirst, hlast⟩
    have hsub := toNat_sub hfirst
    have hlast := Int64.le_iff_toInt_le.mp hlast
    exact ⟨n.toUInt64 - low.toUInt64, UInt64.lt_iff_toNat_lt.mpr (by omega), above_sub low n⟩

/-- Bounds without an integer outside them have no size. -/
theorem bounds_eq_univ (h : low ≤ high) (hsize : high.toUInt64 - low.toUInt64 + 1 = 0) :
    {n | low ≤ n ∧ n ≤ high} = Set.univ ∧ high.toInt - low.toInt + 1 = 2 ^ 64 := by
  have hcount := toNat_size h
  have hzero : (0 : UInt64).toNat = 0 := rfl
  rw [hsize, hzero] at hcount
  have hlow := low.le_toInt
  have hhigh := high.toInt_lt
  have hle := Int64.le_iff_toInt_le.mp h
  refine ⟨Set.eq_univ_of_forall fun n => ?_, by omega⟩
  have hn := n.le_toInt
  have hn' := n.toInt_lt
  exact ⟨Int64.le_iff_toInt_le.mpr (by omega), Int64.le_iff_toInt_le.mpr (by omega)⟩

/-- Integers between two bounds are given by as many words each. -/
theorem uniform_integer? (h : low ≤ high) :
    Uniform (integer? low high) {n | low ≤ n ∧ n ≤ high}
      (share ((high.toInt - low.toInt).toNat + 1)) := by
  have hle := Int64.le_iff_toInt_le.mp h
  by_cases hsize : high.toUInt64 - low.toUInt64 + 1 = 0
  · obtain ⟨hall, hcount⟩ := bounds_eq_univ h hsize
    have hshare : share ((high.toInt - low.toInt).toNat + 1) = 1 := by
      rw [show (high.toInt - low.toInt).toNat + 1 = 2 ^ 64 by omega, share, Nat.log2_two_pow]
      rfl
    have hword : ∀ word, integer? low high word = some word.toInt64 := fun word => if_pos hsize
    rw [hall, hshare]
    refine ⟨fun _ => Set.mem_univ _, fun n _ => ?_⟩
    have hwords : {word | integer? low high word = some n} = {n.toUInt64} := by
      ext word
      constructor
      · intro hn
        exact congrArg Int64.toUInt64 (Option.some.inj ((hword word).symm.trans hn))
      · rintro rfl
        exact hword _
    rw [hwords, Set.ncard_singleton]
  · have hcount := toNat_size h
    have hpos := toNat_pos hsize
    have hlow := low.le_toInt
    have hhigh := high.toInt_lt
    have hshare : (high.toInt - low.toInt).toNat + 1 =
        (high.toUInt64 - low.toUInt64 + 1).toNat := by
      omega
    have huniform := (uniform_accept? hsize).map (above_injective low)
    rw [image_above h hsize] at huniform
    rw [integer?_of_size hsize, hshare]
    exact huniform

variable {σ : Type} [WordSource σ]

/-- An integer between two bounds lies between them, whichever words the source has. -/
theorem between_mem (h : low ≤ high) (s : σ) :
    low ≤ (between low high s).1 ∧ (between low high s).1 ≤ high := by
  by_cases hsize : high.toUInt64 - low.toUInt64 + 1 = 0
  · show (between low high s).1 ∈ {n | low ≤ n ∧ n ≤ high}
    rw [(bounds_eq_univ h hsize).1]
    exact Set.mem_univ _
  · have hpos := toNat_pos hsize
    have hle := firstAccepted_le (high.toUInt64 - low.toUInt64 + 1) UInt64.size s
    have hbetween : (between low high s).1 =
        above low (below (high.toUInt64 - low.toUInt64 + 1) s).1 := by
      rw [between, if_neg hsize]
      rfl
    have hmem : above low (below (high.toUInt64 - low.toUInt64 + 1) s).1 ∈
        above low '' {k | k < high.toUInt64 - low.toUInt64 + 1} :=
      ⟨_, UInt64.lt_iff_toNat_lt.mpr (by rw [below]; omega), rfl⟩
    rw [image_above h hsize] at hmem
    rw [hbetween]
    exact hmem

end Bounds

end Random

end Storybook
