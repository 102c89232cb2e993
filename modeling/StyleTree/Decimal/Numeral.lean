/-! # Decimal numerals

A **numeral** is an exact decimal number: a sign, a natural coefficient and a power of ten. The sign
is kept apart from the coefficient, so that minus zero can be written.

* **`Numeral.scan?`** reads a numeral from the front of a text, in the grammar of JSON: no needless
  zero at the front, digits on both sides of a point, digits in the exponent.
* **`Numeral.scan?_length`** says that it always takes at least one character. -/

namespace StyleTree

/-- The number `± coefficient · 10 ^ exponent`. -/
structure Numeral where
  /-- Whether a minus sign is written. -/
  negative : Bool
  /-- All digits of the numeral, read without the point. -/
  coefficient : Nat
  /-- The power of ten that puts the point back. -/
  exponent : Int
deriving DecidableEq, Repr

namespace Numeral

/-- The value of a digit. -/
def digitValue (c : Char) : Nat := c.toNat - '0'.toNat

/-- The number that a run of digits denotes. -/
def digitsValue (cs : List Char) : Nat := cs.foldl (fun n c => 10 * n + digitValue c) 0

/-- A non-empty run of digits at the front of a text, and the rest of the text. -/
def scanDigits? (cs : List Char) : Option (List Char × List Char) :=
  match cs.takeWhile Char.isDigit with
  | [] => none
  | digits => some (digits, cs.dropWhile Char.isDigit)

/-- The digits before the point: a zero at their front stands alone. -/
def scanWhole? (cs : List Char) : Option (List Char × List Char) :=
  match scanDigits? cs with
  | some ('0' :: _ :: _, _) => none
  | other => other

/-- The digits after the point, none if there is no point. -/
def scanFraction? : List Char → Option (List Char × List Char)
  | '.' :: rest => scanDigits? rest
  | rest => some ([], rest)

/-- The digits of an exponent, after its mark and its sign. -/
def scanPower? (negative : Bool) (cs : List Char) : Option (Int × List Char) :=
  (scanDigits? cs).map fun (digits, rest) =>
    (if negative then -(digitsValue digits : Int) else digitsValue digits, rest)

/-- The exponent after its mark: a sign, if there is one, and digits. -/
def scanSignedPower? : List Char → Option (Int × List Char)
  | '-' :: rest => scanPower? true rest
  | '+' :: rest => scanPower? false rest
  | rest => scanPower? false rest

/-- The exponent with its mark, zero if there is no mark. -/
def scanExponent? : List Char → Option (Int × List Char)
  | 'e' :: rest => scanSignedPower? rest
  | 'E' :: rest => scanSignedPower? rest
  | rest => some (0, rest)

/-- A numeral without its sign at the front of a text, and the rest of the text. -/
def scanUnsigned? (negative : Bool) (cs : List Char) : Option (Numeral × List Char) := do
  let (whole, cs) ← scanWhole? cs
  let (fraction, cs) ← scanFraction? cs
  let (power, cs) ← scanExponent? cs
  pure (⟨negative, digitsValue (whole ++ fraction), power - fraction.length⟩, cs)

/-- A numeral at the front of a text, and the rest of the text. -/
def scan? : List Char → Option (Numeral × List Char)
  | '-' :: rest => scanUnsigned? true rest
  | rest => scanUnsigned? false rest

/-- The integer that a numeral without fraction and exponent denotes. Minus zero is not one. -/
def toInt? (n : Numeral) : Option Int :=
  if n.exponent ≠ 0 then none
  else if n.negative then if n.coefficient = 0 then none else some (-n.coefficient)
  else some n.coefficient

/-- Some digit is always read. -/
theorem scanDigits?_length {cs ds rest : List Char} (h : scanDigits? cs = some (ds, rest)) :
    rest.length < cs.length := by
  have split : (cs.takeWhile Char.isDigit).length + (cs.dropWhile Char.isDigit).length
      = cs.length := by
    rw [← List.length_append, List.takeWhile_append_dropWhile]
  unfold scanDigits? at h
  split at h
  · cases h
  · next digits hne =>
    obtain ⟨rfl, rfl⟩ := Prod.mk.inj (Option.some.inj h)
    have := List.length_pos_iff.2 hne
    omega

/-- A whole part has a digit at least. -/
theorem scanWhole?_length {cs ds rest : List Char} (h : scanWhole? cs = some (ds, rest)) :
    rest.length < cs.length := by
  unfold scanWhole? at h
  split at h
  · cases h
  · exact scanDigits?_length h

/-- A fraction that is left out leaves the text as it is. -/
theorem scanFraction?_length {cs ds rest : List Char} (h : scanFraction? cs = some (ds, rest)) :
    rest.length ≤ cs.length := by
  unfold scanFraction? at h
  split at h
  · exact Nat.le_succ_of_le (Nat.le_of_lt (scanDigits?_length h))
  · cases h
    exact Nat.le_refl _

/-- A power has a digit at least. -/
theorem scanPower?_length {negative : Bool} {cs rest : List Char} {e : Int}
    (h : scanPower? negative cs = some (e, rest)) : rest.length < cs.length := by
  simp only [scanPower?, Option.map_eq_some_iff, Prod.mk.injEq, Prod.exists] at h
  obtain ⟨ds, r, hr, -, rfl⟩ := h
  exact scanDigits?_length hr

/-- A power with or without a sign has a digit at least. -/
theorem scanSignedPower?_length {cs rest : List Char} {e : Int}
    (h : scanSignedPower? cs = some (e, rest)) : rest.length < cs.length := by
  unfold scanSignedPower? at h
  split at h
  · exact Nat.lt_succ_of_lt (scanPower?_length h)
  · exact Nat.lt_succ_of_lt (scanPower?_length h)
  · exact scanPower?_length h

/-- An exponent that is left out leaves the text as it is. -/
theorem scanExponent?_length {cs rest : List Char} {e : Int}
    (h : scanExponent? cs = some (e, rest)) : rest.length ≤ cs.length := by
  unfold scanExponent? at h
  split at h
  · exact Nat.le_succ_of_le (Nat.le_of_lt (scanSignedPower?_length h))
  · exact Nat.le_succ_of_le (Nat.le_of_lt (scanSignedPower?_length h))
  · cases h
    exact Nat.le_refl _

/-- A numeral has a digit at least, so every reader of numerals gets on. -/
theorem scanUnsigned?_length {negative : Bool} {cs rest : List Char} {n : Numeral}
    (h : scanUnsigned? negative cs = some (n, rest)) : rest.length < cs.length := by
  simp only [scanUnsigned?, Option.bind_eq_bind, Option.bind_eq_some_iff, Option.pure_def,
    Option.some.injEq, Prod.mk.injEq, Prod.exists] at h
  obtain ⟨whole, r₁, h₁, fraction, r₂, h₂, power, r₃, h₃, -, rfl⟩ := h
  have := scanWhole?_length h₁
  have := scanFraction?_length h₂
  have := scanExponent?_length h₃
  omega

/-- A numeral holds at least one character. -/
theorem scan?_length {cs rest : List Char} {n : Numeral} (h : scan? cs = some (n, rest)) :
    rest.length < cs.length := by
  unfold scan? at h
  split at h
  · exact Nat.lt_succ_of_lt (scanUnsigned?_length h)
  · exact scanUnsigned?_length h

end Numeral

end StyleTree
