import StyleTree.Naming.Keystream

/-! # Random letters

A **generator** draws small letters from a stream of random words, each letter as likely as any
other. A word is scaled to the 26 letters; where the fraction left over is so large that a further
word could carry into the next letter, that word is drawn as well.

* **`Generator.letter`** draws one letter and **`Generator.letters`** several; each gives the
  generator that draws the letters after. -/

namespace StyleTree

/-- A source of random letters. -/
structure Generator where
  /-- The random words behind the letters. -/
  stream : Keystream
  /-- How many words have been drawn. -/
  position : Nat
deriving DecidableEq

namespace Generator

/-- The generator of a seed, from its first letter on. -/
def ofSeed (seed : UInt64) : Generator := ⟨.ofSeed seed, 0⟩

/-- A word scaled to the letters: the number of a letter and the fraction left over. -/
def scale (word : UInt32) : Nat × Nat :=
  (word.toNat * 26 / UInt32.size, word.toNat * 26 % UInt32.size)

/-- The letter with a number. -/
def letterOfIndex (index : Nat) : Char := Char.ofNat ('a'.toNat + index)

/-- Draw a letter. -/
def letter (g : Generator) : Char × Generator :=
  let (index, fraction) := scale (g.stream.word g.position)
  -- a further word adds less than 26 to the fraction, so below this it cannot carry
  if UInt32.size - 26 < fraction then
    let carry := (fraction + (scale (g.stream.word (g.position + 1))).1) / UInt32.size
    (letterOfIndex (index + carry), { g with position := g.position + 2 })
  else (letterOfIndex index, { g with position := g.position + 1 })

/-- Draw several letters. -/
def letters : Nat → Generator → List Char × Generator
  | 0, g => ([], g)
  | n + 1, g =>
    let (c, g) := g.letter
    let (cs, g) := letters n g
    (c :: cs, g)

@[simp] theorem letters_zero (g : Generator) : letters 0 g = ([], g) := rfl

/-- The first letter of several is the one that is drawn first. -/
theorem letters_succ (n : Nat) (g : Generator) :
    letters (n + 1) g = (g.letter.1 :: (letters n g.letter.2).1, (letters n g.letter.2).2) := rfl

/-- As many letters are drawn as are asked for. -/
@[simp] theorem length_letters (n : Nat) (g : Generator) : (letters n g).1.length = n := by
  induction n generalizing g with
  | zero => rfl
  | succ n ih => rw [letters_succ, List.length_cons, ih]

/-- Drawing letters does not change the stream. -/
@[simp] theorem stream_letter (g : Generator) : g.letter.2.stream = g.stream := by
  simp only [letter]
  split <;> rfl

end Generator

end StyleTree
