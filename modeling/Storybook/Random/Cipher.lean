/-
# `Storybook.Random.Cipher` — a seeded source of random words

The words of a seeded source are the key stream of the ChaCha cipher with twelve rounds.  The
key is drawn from the seed by a linear congruence with a permuted output; the blocks are
counted from zero and the nonce is zero.  A word of 64 bits is two words of the stream, the
lower one first.
-/
import Storybook.Random.Source

namespace Storybook

namespace Cipher

/-- The sixteen words the cipher works on. -/
abbrev Block := Vector UInt32 16

/-- The bits of a word turned left by a number below 32. -/
def rotateLeft (x : UInt32) (n : UInt32) : UInt32 := (x <<< n) ||| (x >>> (32 - n))

/-- The bits of a word turned right by a number below 32. -/
def rotateRight (x : UInt32) (n : UInt32) : UInt32 :=
  if n = 0 then x else (x >>> n) ||| (x <<< (32 - n))

/-- The mixing of four words of a block. -/
def quarterRound (b : Block) (i j k l : Fin 16) : Block :=
  let a := b[i] + b[j]
  let d := rotateLeft (b[l] ^^^ a) 16
  let c := b[k] + d
  let e := rotateLeft (b[j] ^^^ c) 12
  let a := a + e
  let d := rotateLeft (d ^^^ a) 8
  let c := c + d
  let e := rotateLeft (e ^^^ c) 7
  (((b.set i a).set j e).set k c).set l d

/-- A round on the columns and one on the diagonals. -/
def doubleRound (b : Block) : Block :=
  let b := quarterRound b 0 4 8 12
  let b := quarterRound b 1 5 9 13
  let b := quarterRound b 2 6 10 14
  let b := quarterRound b 3 7 11 15
  let b := quarterRound b 0 5 10 15
  let b := quarterRound b 1 6 11 12
  let b := quarterRound b 2 7 8 13
  quarterRound b 3 4 9 14

/-- The block that is enciphered: four constants, the key, the counter and the nonce. -/
def inputBlock (key : Vector UInt32 8) (counter : UInt64) : Block :=
  (#v[0x61707865, 0x3320646e, 0x79622d32, 0x6b206574] : Vector UInt32 4) ++ key ++
    (#v[counter.toUInt32, (counter >>> 32).toUInt32, 0, 0] : Vector UInt32 4)

/-- A block of the key stream. -/
def outputBlock (key : Vector UInt32 8) (counter : UInt64) : Block :=
  let input := inputBlock key counter
  let mixed := (List.range 6).foldl (fun b _ => doubleRound b) input
  mixed.zipWith (· + ·) input

/-- Words of 32 bits taken together two by two. -/
def pairWords : List UInt32 → List UInt64
  | low :: high :: rest => (low.toUInt64 ||| (high.toUInt64 <<< 32)) :: pairWords rest
  | _ => []

/-- The state that gives the next word of a key. -/
def keyStep (state : UInt64) : UInt64 := state * 6364136223846793005 + 11634580027462260723

/-- The word of a key that a state gives. -/
def keyWord (state : UInt64) : UInt32 :=
  rotateRight (((state >>> 18) ^^^ state) >>> 27).toUInt32 (state >>> 59).toUInt32

def key (seed : UInt64) : Vector UInt32 8 :=
  let state (n : Nat) : UInt64 := (List.range (n + 1)).foldl (fun s _ => keyStep s) seed
  Vector.ofFn fun i => keyWord (state i)

end Cipher

/-- A source that a seed determines. -/
structure SeededSource where
  key : Vector UInt32 8
  /-- The number of the block to come. -/
  counter : UInt64
  /-- The words of the current block that have not been given. -/
  pending : List UInt64
deriving Repr

namespace SeededSource

def ofSeed (seed : UInt64) : SeededSource := ⟨Cipher.key seed, 0, []⟩

instance : Inhabited SeededSource := ⟨ofSeed 0⟩

instance : WordSource SeededSource where
  next source :=
    match source.pending with
    | word :: rest => (word, { source with pending := rest })
    | [] =>
      match Cipher.pairWords (Cipher.outputBlock source.key source.counter).toList with
      | word :: rest => (word, ⟨source.key, source.counter + 1, rest⟩)
      | [] => (0, source)

end SeededSource

end Storybook
