/-
# `Storybook.Random.Source` — sources of random words

A source gives a word of 64 bits at a time, together with the source of the words after it.
A script is a source of words that are known beforehand.
-/

namespace Storybook

class WordSource (σ : Type) where
  /-- The next word, and the source after it. -/
  next : σ → UInt64 × σ

/-- Given words, and zeros after them. -/
structure WordScript where
  words : List UInt64
deriving DecidableEq, Repr, Inhabited

instance : WordSource WordScript where
  next
    | ⟨[]⟩ => (0, ⟨[]⟩)
    | ⟨word :: rest⟩ => (word, ⟨rest⟩)

end Storybook
