import StyleTree.Decimal.Numeral

/-! # Binary floating-point numbers of 64 bits

A **`Binary64`** is a finite number, an infinity or not a number. The non-negative finite numbers
are `m · 2 ^ q` with `m < 2 ^ 53` and `-1074 ≤ q ≤ 971`; in increasing order they are numbered from
zero, and this number, the **rank**, stands for the magnitude. All arithmetic is on natural numbers
and integers, and powers of two are shifts.

* **`Binary64.scaled`** gives significand and exponent of a rank.
* **`Binary64.nearestRank`** rounds a fraction to the nearest rank, a tie to the even one.
* **`Binary64.ofNumeral`** rounds a decimal numeral; what is beyond the last rank is infinite. -/

namespace StyleTree

/-- How many magnitudes share an exponent, `2 ^ 52`. -/
def Binary64.octave : Nat := 0x10000000000000

/-- How many magnitudes a finite number can have. -/
def Binary64.rankCount : Nat := 2047 * Binary64.octave

/-- A binary floating-point number of 64 bits. -/
inductive Binary64
  /-- The finite number whose magnitude has the given rank. -/
  | finite (negative : Bool) (rank : Fin Binary64.rankCount)
  /-- An infinity. -/
  | infinite (negative : Bool)
  /-- Not a number. -/
  | nan
deriving DecidableEq, Repr

namespace Binary64

/-- Whether a number is neither infinite nor `nan`. -/
def isFinite : Binary64 → Bool
  | .finite _ _ => true
  | _ => false

/-- Whether a number is zero, of either sign. -/
def isZero : Binary64 → Bool
  | .finite _ rank => rank.val == 0
  | _ => false

@[simp] theorem isFinite_finite (negative : Bool) (rank : Fin rankCount) :
    isFinite (.finite negative rank) = true := rfl

@[simp] theorem isFinite_infinite (negative : Bool) : isFinite (.infinite negative) = false := rfl

@[simp] theorem isFinite_nan : isFinite .nan = false := rfl

/-- The significand `m` and the exponent `q` with which a rank stands for `m · 2 ^ q`. -/
def scaled (rank : Nat) : Nat × Int :=
  if rank < octave then (rank, -1074)
  else (octave + rank % octave, (rank / octave : Nat) - 1075)

/-- The quotient of two natural numbers, rounded to the nearest, a tie to the even one. -/
def roundQuotient (num den : Nat) : Nat :=
  let quotient := num / den
  let twice := 2 * (num % den)
  if den < twice || (den == twice && quotient % 2 == 1) then quotient + 1 else quotient

/-- The greatest `e` with `2 ^ e ≤ num / den`, for positive numbers. -/
def log2Quotient (num den : Nat) : Int :=
  let e : Int := num.log2 - den.log2
  if den <<< e.toNat ≤ num <<< (-e).toNat then e else e - 1

/-- The rank nearest to `num / den`, a tie to the even one, if there were no last rank. The
significand that belongs to an exponent `q` counts on from the ranks below, so that one rounded up
to the next power of two is the first of the next exponent. -/
def nearestRank (num den : Nat) : Nat :=
  if num = 0 then 0
  else
    -- the exponent that gives 53 significant bits, or fewer at the bottom of the range
    let q := max (-1074) (log2Quotient num den - 52)
    (q + 1074).toNat * octave + roundQuotient (num <<< (-q).toNat) (den <<< q.toNat)

/-- The number with a sign and a rank, infinite if there is no such rank. -/
def ofRank (negative : Bool) (rank : Nat) : Binary64 :=
  if h : rank < rankCount then .finite negative ⟨rank, h⟩ else .infinite negative

/-- Zero, of either sign. -/
def zero (negative : Bool) : Binary64 := .finite negative ⟨0, by decide⟩

/-- The number nearest to a numeral. A numeral below `10 ^ -330` is closest to zero and one of at
least `10 ^ 311` is beyond the last rank; both are settled without writing out the power of ten. -/
def ofNumeral (n : Numeral) : Binary64 :=
  if n.coefficient = 0 || n.exponent + n.coefficient.log2 < -330 then zero n.negative
  else if 310 < n.exponent then .infinite n.negative
  else ofRank n.negative
    (nearestRank (n.coefficient * Nat.pow 10 n.exponent.toNat) (Nat.pow 10 (-n.exponent).toNat))

/-- The number nearest to an integer. -/
def ofInt (n : Int) : Binary64 := ofNumeral ⟨n < 0, n.natAbs, 0⟩

/-- The number that a text denotes: a numeral, an infinity or `NaN`. -/
def ofText? (text : String) : Option Binary64 :=
  match text with
  | "NaN" => some .nan
  | "inf" => some (.infinite false)
  | "-inf" => some (.infinite true)
  | _ =>
    match Numeral.scan? text.toList with
    | some (n, []) => some (ofNumeral n)
    | _ => none

end Binary64

end StyleTree
