/-! # A stream of random words

The **ChaCha** stream cipher with twelve rounds, as a source of random words of 32 bits. A key gives
a block of sixteen words for every value of a 64-bit counter; the stream is the sequence of the
blocks, from counter zero on, and starts again after the last counter. A key is expanded from a seed
of 64 bits by a linear congruential generator with a permuted output.

* **`Keystream.ofSeed`** is the stream of a seed, **`Keystream.word`** its word at a position.
* **`Keystream.period`** is the number of positions after which the stream starts again;
  `Keystream.word_add_period` says so. -/

namespace StyleTree

/-- A stream of random words, given by its key. -/
structure Keystream where
  /-- The eight words of the key. -/
  key : Vector UInt32 8
deriving DecidableEq

namespace Keystream

/-- The bits of a word, rotated to the left. -/
def rotateLeft (x n : UInt32) : UInt32 := (x <<< n) ||| (x >>> (32 - n))

/-- The words that the rounds work on. -/
abbrev Block := Vector UInt32 16

/-- One step of a quarter round: add a word to another, combine the sum with a third, and rotate
that. -/
def mix (b : Block) (sum addend target : Fin 16) (bits : UInt32) : Block :=
  let b := b.set sum (b[sum] + b[addend])
  b.set target (rotateLeft (b[target] ^^^ b[sum]) bits)

/-- A quarter round on four words of a block. -/
def quarterRound (b : Block) (i j k l : Fin 16) : Block :=
  mix (mix (mix (mix b i j l 16) k l j 12) i j l 8) k l j 7

/-- A round on the columns and a round on the diagonals of a block. -/
def doubleRound (b : Block) : Block :=
  let b := quarterRound b 0 4 8 12
  let b := quarterRound b 1 5 9 13
  let b := quarterRound b 2 6 10 14
  let b := quarterRound b 3 7 11 15
  let b := quarterRound b 0 5 10 15
  let b := quarterRound b 1 6 11 12
  let b := quarterRound b 2 7 8 13
  quarterRound b 3 4 9 14

/-- The block before its rounds: four constants, the key, the counter and two zeros. -/
def initialBlock (key : Vector UInt32 8) (counter : UInt64) : Block :=
  #v[0x61707865, 0x3320646e, 0x79622d32, 0x6b206574,
    key[0], key[1], key[2], key[3], key[4], key[5], key[6], key[7],
    counter.toUInt32, (counter >>> 32).toUInt32, 0, 0]

/-- The block of a counter: the initial block after twelve rounds, added to itself before them. -/
def block (s : Keystream) (counter : UInt64) : Block :=
  let start := initialBlock s.key counter
  Vector.zipWith (· + ·) (Nat.repeat doubleRound 6 start) start

/-- The word at a position of the stream. -/
def word (s : Keystream) (position : Nat) : UInt32 :=
  (s.block (UInt64.ofNat (position / 16))).get ⟨position % 16, Nat.mod_lt _ (by decide)⟩

/-- How many words the stream has before it starts again: sixteen for each counter. -/
def period : Nat := 16 * UInt64.size

/-- The stream starts again after its period. -/
theorem word_add_period (s : Keystream) (position : Nat) :
    s.word (position + period) = s.word position := by
  have block_eq : UInt64.ofNat ((position + period) / 16) = UInt64.ofNat (position / 16) := by
    apply UInt64.toNat_inj.1
    simp only [UInt64.toNat_ofNat', period, UInt64.size]
    omega
  have index_eq : (position + period) % 16 = position % 16 := by
    simp only [period, UInt64.size]
    omega
  simp only [word, block_eq, index_eq]

/-- The next state of the generator that expands seeds. -/
def nextSeed (state : UInt64) : UInt64 := state * 6364136223846793005 + 11634580027462260723

/-- The word that a state of the generator gives: its high bits, folded and rotated. -/
def seedWord (state : UInt64) : UInt32 :=
  let folded := (((state >>> 18) ^^^ state) >>> 27).toUInt32
  let bits := (state >>> 59).toUInt32
  (folded >>> bits) ||| (folded <<< (32 - bits))

/-- The stream of a seed. -/
def ofSeed (seed : UInt64) : Keystream where
  key := Vector.ofFn fun i => seedWord (Nat.repeat nextSeed (i.val + 1) seed)

end Keystream

end StyleTree
