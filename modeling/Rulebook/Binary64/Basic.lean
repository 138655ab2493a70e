/-!
# Binary floating-point numbers

A number of the 64-bit binary interchange format, kept as its sign and the other 63
bits.  These 63 bits, the *magnitude*, count the numbers of one sign from zero up: the
next larger number has the next larger magnitude, infinity comes after every finite
number, and what lies above infinity is no number.  So numbers are ordered by their
signed magnitudes (`Binary64.order?`), and every finite one is a whole number of
*units* of `2 ^ (-1074)` (`Binary64.units`).

All arithmetic on these numbers is exact arithmetic on integers followed by one
rounding (`Rulebook.Binary64.Rounding`).
-/

namespace Rulebook

/-- A 64-bit binary floating-point number. -/
structure Binary64 where
  /-- The sign bit. -/
  negative : Bool
  /-- The other bits, as a number. -/
  magnitude : Nat
  /-- There are 63 of them. -/
  magnitude_lt : magnitude < 1 <<< 63 := by decide
  deriving DecidableEq, Repr

namespace Binary64

/-- The magnitude of infinity. -/
def infiniteMagnitude : Nat := 2047 <<< 52

/-- The number with the given bits. -/
def ofBits (bits : UInt64) : Binary64 where
  negative := decide (1 <<< 63 ≤ bits.toNat)
  magnitude := bits.toNat % (1 <<< 63)
  magnitude_lt := Nat.mod_lt _ (by decide)

/-- Whether the number is neither infinite nor no number. -/
def isFinite (x : Binary64) : Bool := decide (x.magnitude < infiniteMagnitude)

/-- Whether this is no number at all. -/
def isNaN (x : Binary64) : Bool := decide (infiniteMagnitude < x.magnitude)

/-- The magnitude with its sign. -/
def signed (x : Binary64) : Int := if x.negative then -(x.magnitude : Int) else x.magnitude

/-- The order of two numbers; what is no number stands in no order.  The two zeros are
equal. -/
def order? (x y : Binary64) : Option Ordering :=
  if x.isNaN || y.isNaN then none else some (compare x.signed y.signed)

/-- Whether two numbers are equal in `order?`. -/
def equals (x y : Binary64) : Bool := x.order? y == some .eq

/-- The distance to the next magnitude, in units, in the binade of a magnitude. -/
def spacing (magnitude : Nat) : Nat := 1 <<< (magnitude >>> 52 - 1)

/-- The size of the finite number with a magnitude, in units of `2 ^ (-1074)`.  The
lowest `2 ^ 52` magnitudes count units; above them the size is a significand with its
leading one, times the spacing. -/
def unitsOf (magnitude : Nat) : Nat :=
  if magnitude < 1 <<< 52 then magnitude
  else (1 <<< 52 + magnitude % (1 <<< 52)) * spacing magnitude

/-- The size of a finite number, in units of `2 ^ (-1074)`. -/
def units (x : Binary64) : Nat := unitsOf x.magnitude

/-- How many units make one. -/
def one : Nat := 1 <<< 1074

example : (ofBits 0x3FF0000000000000).units = one := by decide +kernel
example : (ofBits 0x8000000000000000).order? (ofBits 0) = some .eq := by decide
example : (ofBits 0x7FF8000000000000).order? (ofBits 0) = none := by decide

end Binary64

end Rulebook
