import Rulebook.Binary64.Basic

/-!
# Shortest decimals

The decimal with the fewest digits that rounds to a given number, and of those the
nearest to it.  The decimals that round to a number form an interval around it
(`Span`); its ends belong to it when the magnitude is even.  For one, two, … digits
the two neighbours of the number on the grid of decimals with that many digits are
tried, in exact arithmetic on natural numbers: if any point of a grid lies in the
interval, so does one of the two neighbours.  Seventeen digits always suffice.

No unit is smaller than `10 ^ (-324)`, so a grid point of at most seventeen digits times
`10 ^ 400` is an integer, and `scale` makes all comparisons ones between integers.
-/

namespace Rulebook.Binary64

/-- What to choose between two decimals that are equally near. -/
inductive Tie where
  /-- The larger one. -/
  | up
  /-- The one whose last digit is even. -/
  | even
  deriving DecidableEq, Repr

/-- A positive decimal `0.d₁d₂…dₙ · 10 ^ point`. -/
structure Decimal where
  /-- The digits `d₁ d₂ … dₙ`; neither the first nor the last is zero. -/
  digits : List Char
  /-- Where the point stands. -/
  point : Int
  deriving DecidableEq, Repr

/-- How many powers of ten everything is scaled up by. -/
def scale : Nat := 400

/-- The decimals that round to a number: an interval around it, in quarters of a unit
times `10 ^ scale`. -/
structure Span where
  /-- The lower end. -/
  low : Nat
  /-- The number itself. -/
  centre : Nat
  /-- The upper end. -/
  high : Nat
  /-- Whether the ends belong to the interval. -/
  closed : Bool
  deriving Repr

/-- The interval of a magnitude.  It reaches half way to the neighbours; the neighbour
below a power of two is only half as far away as the one above. -/
def Span.of (magnitude : Nat) : Span :=
  let gap := spacing magnitude
  let isPower := magnitude % (1 <<< 52) == 0 && decide (1 <<< 52 < magnitude)
  let centre := 4 * unitsOf magnitude
  { low := (centre - if isPower then gap else 2 * gap) * Nat.pow 10 scale
    centre := centre * Nat.pow 10 scale
    high := (centre + 2 * gap) * Nat.pow 10 scale
    closed := magnitude % 2 == 0 }

/-- Whether a point lies in the interval. -/
def Span.includes (s : Span) (point : Nat) : Bool :=
  if s.closed then decide (s.low ≤ point) && decide (point ≤ s.high)
  else decide (s.low < point) && decide (point < s.high)

/-- The nearest point of the interval on the grid of the multiples of `step`, as a
multiple. -/
def Span.onGrid (s : Span) (tie : Tie) (step : Nat) : Option Nat :=
  let below := s.centre / step
  match s.includes (below * step), s.includes ((below + 1) * step) with
  | false, false => none
  | true, false => some below
  | false, true => some (below + 1)
  | true, true =>
      match compare (2 * (s.centre - below * step)) step with
      | .lt => some below
      | .gt => some (below + 1)
      | .eq => match tie with
        | .up => some (below + 1)
        | .even => some (below + below % 2)

/-- The decimal `n · 10 ^ (power - scale)`, without zeros at its end. -/
def Decimal.ofScaled (n power : Nat) : Decimal :=
  let digits := Nat.toDigits 10 n
  { digits := (digits.reverse.dropWhile (· == '0')).reverse
    point := (power + digits.length : Nat) - (scale : Int) }

/-- The shortest decimal of the finite number with a magnitude that is not zero. -/
def shortest (tie : Tie) (magnitude : Nat) : Decimal :=
  let s := Span.of magnitude
  let quarters := 4 * one
  let places := (Nat.toDigits 10 (s.centre / quarters)).length
  let found := (List.range 17).findSome? fun n =>
    let power := places - (n + 1)
    (s.onGrid tie (Nat.pow 10 power * quarters)).map fun m => Decimal.ofScaled m power
  found.getD (Decimal.ofScaled (s.centre / quarters) 0)

example : shortest .up (ofBits 0x3FF8000000000000).magnitude = ⟨['1', '5'], 1⟩ := by
  decide +kernel
example : shortest .up (ofBits 1).magnitude = ⟨['5'], -323⟩ := by decide +kernel
example : (shortest .up (ofBits 0x3E60000000000000).magnitude).digits.getLast? = some '3' := by
  decide +kernel
example : (shortest .even (ofBits 0x3E60000000000000).magnitude).digits.getLast? = some '2' := by
  decide +kernel

end Rulebook.Binary64
