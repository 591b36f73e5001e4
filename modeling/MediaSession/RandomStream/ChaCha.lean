import MediaSession.RandomStream.Words

/-!
A stream of random words: the ChaCha block function with twelve rounds over a 64-bit block counter, its
key spread from a 64-bit seed.
-/
namespace MediaSession.RandomStream

abbrev Block := Vector UInt32 16

namespace ChaCha

def rotateLeft (word : UInt32) (places : UInt32) : UInt32 :=
  (word <<< places) ||| (word >>> (32 - places))

/-- Mix four words of a block. -/
def quarterRound (block : Block) (a b c d : Fin 16) : Block :=
  let block := block.set a (block[a] + block[b])
  let block := block.set d (rotateLeft (block[d] ^^^ block[a]) 16)
  let block := block.set c (block[c] + block[d])
  let block := block.set b (rotateLeft (block[b] ^^^ block[c]) 12)
  let block := block.set a (block[a] + block[b])
  let block := block.set d (rotateLeft (block[d] ^^^ block[a]) 8)
  let block := block.set c (block[c] + block[d])
  block.set b (rotateLeft (block[b] ^^^ block[c]) 7)

/-- Four columns, then four diagonals. -/
def doubleRound (block : Block) : Block :=
  let block := quarterRound block 0 4 8 12
  let block := quarterRound block 1 5 9 13
  let block := quarterRound block 2 6 10 14
  let block := quarterRound block 3 7 11 15
  let block := quarterRound block 0 5 10 15
  let block := quarterRound block 1 6 11 12
  let block := quarterRound block 2 7 8 13
  quarterRound block 3 4 9 14

/-- Constants, key, counter, and two words that stay zero. -/
def initial (key : Vector UInt32 8) (counter : UInt64) : Block :=
  #v[0x61707865, 0x3320646e, 0x79622d32, 0x6b206574,
    key[0], key[1], key[2], key[3], key[4], key[5], key[6], key[7],
    counter.toUInt32, (counter >>> 32).toUInt32, 0, 0]

/-- The block of a counter value. -/
def block (key : Vector UInt32 8) (counter : UInt64) : Block :=
  let start := initial key counter
  let mixed := Nat.repeat doubleRound 6 start
  Vector.zipWith (· + ·) mixed start

/-- One step of the generator that spreads a seed, and the word it gives. -/
def spread (seed : UInt64) : UInt32 × UInt64 :=
  let seed := seed * 6364136223846793005 + 11634580027462260723
  let mixed := (((seed >>> 18) ^^^ seed) >>> 27).toUInt32
  let places := (seed >>> 59).toUInt32
  ((mixed >>> places) ||| (mixed <<< (32 - places)), seed)

/-- Key words spread from a seed. -/
def keyOf (seed : UInt64) : Vector UInt32 8 :=
  let (k0, seed) := spread seed
  let (k1, seed) := spread seed
  let (k2, seed) := spread seed
  let (k3, seed) := spread seed
  let (k4, seed) := spread seed
  let (k5, seed) := spread seed
  let (k6, seed) := spread seed
  let (k7, _) := spread seed
  #v[k0, k1, k2, k3, k4, k5, k6, k7]

end ChaCha

/-- The words of one block that are left, and the counter of the next block. -/
structure ChaCha where
  key : Vector UInt32 8
  counter : UInt64 := 0
  rest : List UInt32 := []

namespace ChaCha

def ofSeed (seed : UInt64) : ChaCha := { key := keyOf seed }

def next (stream : ChaCha) : UInt32 × ChaCha :=
  match stream.rest with
  | word :: rest => (word, { stream with rest })
  | [] =>
    match (block stream.key stream.counter).toList with
    | word :: rest => (word, { stream with counter := stream.counter + 1, rest })
    | [] => (0, stream)

instance : WordSource ChaCha := ⟨next⟩

end ChaCha

end MediaSession.RandomStream
