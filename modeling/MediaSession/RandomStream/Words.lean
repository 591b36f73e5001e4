/-!
Sources of random words, and numbers below a bound drawn from them. A draw takes one word, and a second
one only if the first leaves the result open.
-/
namespace MediaSession.RandomStream

/-- A source of 32-bit words with state `σ`. -/
class WordSource (σ : Type) where
  next : σ → UInt32 × σ

variable {σ : Type} [WordSource σ]

/-- The next word as a number. -/
def word32 (source : σ) : Nat × σ :=
  let (word, source) := WordSource.next source
  (word.toNat, source)

/-- The next two words as one number, the low word first. -/
def word64 (source : σ) : Nat × σ :=
  let (low, source) := word32 source
  let (high, source) := word32 source
  (low + 0x100000000 * high, source)

/-- Scale a word of a certain size to a number below `bound`; a second word decides about the carry. -/
def drawWith (word : σ → Nat × σ) (size bound : Nat) (source : σ) : Nat × σ :=
  let (first, source) := word source
  let result := first * bound / size
  let low := first * bound % size
  if low ≤ size - bound then (result, source)
  else
    let (second, source) := word source
    if low + second * bound / size < size then (result, source) else (result + 1, source)

/-- A number below `bound`, from 32-bit words. -/
def below (bound : Nat) (source : σ) : Nat × σ := drawWith word32 0x100000000 bound source

/-- A number from `low` up to but not including `high`, from 64-bit words. -/
def between (low high : Nat) (source : σ) : Nat × σ :=
  let (offset, source) := drawWith word64 0x10000000000000000 (high - low) source
  (low + offset, source)

end MediaSession.RandomStream
