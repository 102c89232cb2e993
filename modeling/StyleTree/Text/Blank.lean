/-! # White space

The characters with the Unicode **White_Space** property, as a table of ranges, and the removal of
such characters from the ends of a text. Texts are lists of characters here, so that every function
is a plain recursion on the data.

* **`isBlank`** decides the property; it is wider than the ASCII test of `Char.isWhitespace`.
* **`trimStart`**, **`trimEnd`** and **`trim`** drop blank characters from the front, from the back
  and from both ends. -/

namespace StyleTree

/-- The code points of the White_Space property, as inclusive ranges in increasing order. -/
def blankRanges : List (Nat × Nat) :=
  [(0x09, 0x0D), (0x20, 0x20), (0x85, 0x85), (0xA0, 0xA0), (0x1680, 0x1680), (0x2000, 0x200A),
    (0x2028, 0x2029), (0x202F, 0x202F), (0x205F, 0x205F), (0x3000, 0x3000)]

/-- Whether a character has the White_Space property. -/
def isBlank (c : Char) : Bool :=
  blankRanges.any fun range => range.1 ≤ c.toNat && c.toNat ≤ range.2

/-- Drop the blank characters at the front. -/
def trimStart (cs : List Char) : List Char := cs.dropWhile isBlank

/-- Drop the blank characters at the back. -/
def trimEnd (cs : List Char) : List Char := (cs.reverse.dropWhile isBlank).reverse

/-- Drop the blank characters at both ends. -/
def trim (cs : List Char) : List Char := trimEnd (trimStart cs)

@[simp] theorem trimStart_nil : trimStart [] = [] := rfl

/-- Trimming stops at the first character that is not blank. -/
theorem trimStart_cons (c : Char) (cs : List Char) :
    trimStart (c :: cs) = if isBlank c then trimStart cs else c :: cs := by
  simp only [trimStart, List.dropWhile_cons]

@[simp] theorem trimEnd_nil : trimEnd [] = [] := rfl

/-- At the back a blank character goes and any other stays. -/
theorem trimEnd_append_singleton (cs : List Char) (c : Char) :
    trimEnd (cs ++ [c]) = if isBlank c then trimEnd cs else cs ++ [c] := by
  simp only [trimEnd, List.reverse_append, List.reverse_singleton, List.singleton_append,
    List.dropWhile_cons]
  split <;> simp

/-- What `trimStart` drops is blank, and nothing else is lost. -/
theorem takeWhile_append_trimStart (cs : List Char) : cs.takeWhile isBlank ++ trimStart cs = cs :=
  List.takeWhile_append_dropWhile

end StyleTree
