/-
# `Storybook.Script.Identity` — ids for agents without one

An agent that a script gives no id gets one from a source of ids: numbers in the order of the
agents, or random identifiers.
-/
import Storybook.Json.Writer
import Storybook.Random.Source

namespace Storybook.Script

class IdSource (ι : Type) where
  /-- An id for an agent of a kind, and the source after it. -/
  next : (kind : String) → ι → String × ι

/-- Ids of a kind and a number, counted over all kinds together. -/
structure IdCounter where
  last : Nat
deriving DecidableEq, Repr, Inhabited

instance : IdSource IdCounter where
  next kind ids := (kind ++ "_" ++ toString (ids.last + 1), ⟨ids.last + 1⟩)

/-- Random identifiers of 128 bits. -/
structure RandomIds (σ : Type) where
  source : σ

/-- The last `n` hexadecimal digits of a number. -/
def hexDigits : Nat → Nat → List Char
  | 0, _ => []
  | n + 1, value => hexDigits n (value / 16) ++ [Json.hexDigit (value % 16)]

/-- Two words as an identifier of version 4: groups of 8, 4, 4, 4 and 12 digits, of which
the version and the variant are fixed. -/
def randomId (high low : UInt64) : String :=
  let high := (high &&& 0xffffffffffff0fff) ||| 0x4000
  let low := (low &&& 0x3fffffffffffffff) ||| 0x8000000000000000
  let digits := hexDigits 16 high.toNat ++ hexDigits 16 low.toNat
  let group (start count : Nat) : String := String.ofList ((digits.drop start).take count)
  "-".intercalate [group 0 8, group 8 4, group 12 4, group 16 4, group 20 12]

instance [WordSource σ] : IdSource (RandomIds σ) where
  next _ ids :=
    let (high, source) := WordSource.next ids.source
    let (low, source) := WordSource.next source
    (randomId high low, ⟨source⟩)

end Storybook.Script
