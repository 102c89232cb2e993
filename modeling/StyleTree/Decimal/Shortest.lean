import StyleTree.Decimal.Binary64

/-! # Shortest decimal text of a binary number

The text of a finite number has the **fewest digits that read back** as the number; of the decimals
with that many digits it is the nearest, and of two that are equally near the larger. It is written
positionally, without an exponent and without a superfluous point.

The decimals of one exponent `j` are the grid of the multiples of `10 ^ j`. Fewer digits mean a
coarser grid, so the search goes from coarse grids to fine ones and stops at the first that has a
point in the interval of the reals that round to the number. On a grid only the two neighbours of
the number itself have to be tried.

* **`Binary64.interval`** is that interval, on a common binary unit.
* **`Binary64.gridPoint?`** is the best point of one grid.
* **`Binary64.text`** is the text of any number. -/

namespace StyleTree

namespace Binary64

/-- The reals that round to a magnitude: `low`, `value` and `high` count units of `2 ^ exponent`. -/
structure Interval where
  /-- The lower end. -/
  low : Nat
  /-- The magnitude itself. -/
  value : Nat
  /-- The upper end. -/
  high : Nat
  /-- The power of two that is the unit. -/
  exponent : Int
  /-- Whether the ends belong to the interval. -/
  closed : Bool

/-- The interval of a rank. Its ends lie halfway to the neighbouring ranks, and a tie at an end goes
to an even significand. Below a power of two the ranks lie twice as close. -/
def interval (rank : Nat) : Interval :=
  let (m, q) := scaled rank
  let low := if m = octave && -1074 < q then 4 * m - 1 else 4 * m - 2
  ⟨low, 4 * m, 4 * m + 2, q - 2, m % 2 == 0⟩

/-- The multiple of `10 ^ j` in an interval that is nearest to its value, the larger of two, divided
by `10 ^ j`. Both sides of each comparison are scaled to integers. -/
def gridPoint? (i : Interval) (j : Int) : Option Nat :=
  -- multiplied by all denominators, a step of the grid is `step` and a unit of the interval `unit`
  let unit := Nat.pow 10 (-j).toNat <<< i.exponent.toNat
  let step := Nat.pow 10 j.toNat <<< (-i.exponent).toNat
  let below := i.value * unit / step
  let above := below + 1
  let holdsBelow := if i.closed then i.low * unit ≤ below * step else i.low * unit < below * step
  let holdsAbove := if i.closed then above * step ≤ i.high * unit else above * step < i.high * unit
  if holdsBelow then
    -- of two points take the nearer; halfway between them, the one above
    if holdsAbove && (below + above) * step ≤ 2 * i.value * unit then some above else some below
  else if holdsAbove then some above
  else none

/-- An exponent `j` for which `10 ^ j` is above the interval of a rank. -/
def coarseExponent (rank : Nat) : Int :=
  let (m, q) := scaled rank
  Int.fdiv ((q + m.log2 + 2) * 30103) 100000 + 2

/-- Coefficient and exponent of the shortest decimal that reads back as the magnitude of a rank.
Seventeen digits always suffice, so one of the grids tried has a point. -/
def shortest (rank : Nat) : Nat × Int :=
  let coarse := coarseExponent rank
  let grids := (List.range 24).map fun (k : Nat) => coarse - k
  (grids.findSome? fun j => (gridPoint? (interval rank) j).map (·, j)).getD (0, 0)

/-- The positional text of `coefficient · 10 ^ exponent`. -/
def positional (coefficient : Nat) (exponent : Int) : String :=
  let digits := Nat.toDigits 10 coefficient
  if 0 ≤ exponent then String.ofList (digits ++ List.replicate exponent.toNat '0')
  else
    let places := (-exponent).toNat
    let padded := List.replicate (places + 1 - digits.length) '0' ++ digits
    let whole := padded.length - places
    String.ofList (padded.take whole ++ '.' :: padded.drop whole)

/-- The text of a magnitude. -/
def magnitudeText (rank : Nat) : String :=
  if rank = 0 then "0"
  else
    let (coefficient, exponent) := shortest rank
    positional coefficient exponent

/-- The text of a number. The sign of a zero is written. -/
def text : Binary64 → String
  | .finite negative rank => (if negative then "-" else "") ++ magnitudeText rank
  | .infinite false => "inf"
  | .infinite true => "-inf"
  | .nan => "NaN"

@[simp] theorem text_nan : text .nan = "NaN" := rfl

@[simp] theorem text_infinite (negative : Bool) :
    text (.infinite negative) = if negative then "-inf" else "inf" := by
  cases negative <;> rfl

end Binary64

end StyleTree
