import Rulebook.Binary64.Basic

/-!
# Rounding to the nearest number

`Binary64.nearest` gives the number nearest to a quotient of natural numbers; of two
equally near it takes the one with an even magnitude.  Everything that yields a number
goes through it: integers, decimals, products and quotients.
-/

namespace Rulebook.Binary64

/-- The integer nearest to `num / den`; half way between two, the even one. -/
def roundHalfEven (num den : Nat) : Nat :=
  let floor := num / den
  match compare (2 * (num % den)) den with
  | .lt => floor
  | .gt => floor + 1
  | .eq => floor + floor % 2

/-- The magnitude nearest to `num / den` units.  From `2 ^ 53` units on, each further
binary digit doubles the spacing, and each binade takes up `2 ^ 52` magnitudes; a
significand that rounds up to the next power of two thereby reaches the next binade.
What would lie beyond infinity is infinite. -/
def nearestMagnitude (num den : Nat) : Nat :=
  let binade := (num / den).log2 - 52
  min infiniteMagnitude (binade <<< 52 + roundHalfEven num (den <<< binade))

theorem nearestMagnitude_lt (num den : Nat) : nearestMagnitude num den < 1 <<< 63 :=
  Nat.lt_of_le_of_lt (Nat.min_le_left _ _) (by decide)

/-- The number nearest to `num / den`, with the given sign. -/
def nearest (negative : Bool) (num den : Nat) : Binary64 where
  negative := negative
  magnitude := nearestMagnitude (num * one) den
  magnitude_lt := nearestMagnitude_lt _ _

/-- The number nearest to an integer. -/
def ofInt (i : Int) : Binary64 := nearest (decide (i < 0)) i.natAbs 1

/-- The number nearest to a natural number. -/
def ofNat (n : Nat) : Binary64 := nearest false n 1

/-- The product of two finite numbers, rounded. -/
def mul (x y : Binary64) : Binary64 :=
  nearest (x.negative != y.negative) (x.units * y.units) (one * one)

/-- The quotient of two finite numbers, rounded; the divisor is not zero. -/
def div (x y : Binary64) : Binary64 :=
  nearest (x.negative != y.negative) x.units y.units

/-- The number with the opposite sign. -/
def neg (x : Binary64) : Binary64 := { x with negative := !x.negative }

example : ofInt (-1) = ofBits 0xBFF0000000000000 := by decide +kernel
example : ofNat (2 ^ 53 + 1) = ofNat (2 ^ 53) := by decide +kernel
example : nearest false 1 10 = ofBits 0x3FB999999999999A := by decide +kernel
example : (mul (ofNat (10 ^ 200)) (ofNat (10 ^ 200))).isFinite = false := by decide +kernel

end Rulebook.Binary64
