/-
# `Storybook.Random.Draw` — uniform choices from random words

A number below `n` is the upper half of the product of a word with `n`.  Words whose product
has a lower half beyond the *zone* of `n` are refused and the next one is tried; the zone is
the greatest product of `n` with a power of two that fits into 64 bits, less one, so that
every number below `n` comes from equally many words.
-/
import Storybook.Random.Source

namespace Storybook.Random

/-- The largest lower half that is accepted for a size. -/
def zone (size : UInt64) : Nat := size.toNat <<< (63 - size.toNat.log2) - 1

/-- The number below `size` that a word gives, unless the word is refused. -/
def accept? (size word : UInt64) : Option UInt64 :=
  let product := word.toNat * size.toNat
  if product % UInt64.size ≤ zone size then some (UInt64.ofNat (product / UInt64.size)) else none

/-- The number of the first word that is accepted, out of at most `tries`. -/
def firstAccepted [WordSource σ] (size : UInt64) : Nat → σ → UInt64 × σ
  | 0, source => (0, source)
  | tries + 1, source =>
    let (word, source) := WordSource.next source
    match accept? size word with
    | some n => (n, source)
    | none => firstAccepted size tries source

/-- A number below a size other than zero. -/
def below [WordSource σ] (size : UInt64) (source : σ) : UInt64 × σ :=
  firstAccepted size UInt64.size source

/-- An integer between two bounds, of which `low` is the lower one.  Where the bounds leave
out no integer, a word is taken as it is. -/
def between [WordSource σ] (low high : Int64) (source : σ) : Int64 × σ :=
  let size := high.toUInt64 - low.toUInt64 + 1
  if size = 0 then
    let (word, source) := WordSource.next source
    (word.toInt64, source)
  else
    let (offset, source) := below size source
    ((low.toUInt64 + offset).toInt64, source)

/-- The index of an item of a list with `count` items. -/
def index [WordSource σ] (count : Nat) (source : σ) : Nat × σ :=
  let (n, source) := below (UInt64.ofNat count) source
  (n.toNat, source)

end Storybook.Random
