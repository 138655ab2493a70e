import Rulebook.Numeral
import Rulebook.Binary64.Shortest

/-!
# Writing floating-point numbers

A number is written by its shortest decimal: with all its places when its size is
moderate, otherwise as a power of ten with one digit before the point.  What is moderate
and how the power is written is a `FloatStyle`; rule texts and JSON texts have one each.
-/

namespace Rulebook

/-- How numbers are written. -/
structure FloatStyle where
  /-- The least power of ten of a leading digit that is written with all places. -/
  least : Int
  /-- The greatest such power. -/
  greatest : Int
  /-- Whether a power that is not negative has a plus sign. -/
  plus : Bool
  /-- The choice between two shortest decimals that are equally near. -/
  tie : Binary64.Tie
  deriving DecidableEq, Repr

/-- Numbers in rule texts: all places from `0.0001` to below `10 ^ 16`, no plus sign, and
the larger of two decimals. -/
def FloatStyle.rule : FloatStyle := ⟨-4, 15, false, .up⟩

/-- Numbers in JSON texts: all places from `0.00001` to below `10 ^ 16`, a plus sign, and
the even one of two decimals. -/
def FloatStyle.json : FloatStyle := ⟨-5, 15, true, .even⟩

/-- A decimal with all its places.  There is always a digit on either side of the
point. -/
def Binary64.Decimal.positional (d : Binary64.Decimal) (negative : Bool) : Numeral :=
  let before := d.point.toNat
  let whole := d.digits.take before ++ List.replicate (before - d.digits.length) '0'
  let fraction := List.replicate (-d.point).toNat '0' ++ d.digits.drop before
  { negative
    whole := if whole.isEmpty then ['0'] else whole
    fraction := if fraction.isEmpty then ['0'] else fraction
    exponent := none }

/-- A decimal as a power of ten with one digit before the point. -/
def Binary64.Decimal.scientific (d : Binary64.Decimal) (negative plus : Bool) : Numeral where
  negative := negative
  whole := d.digits.take 1
  fraction := d.digits.drop 1
  exponent := some (.ofInt plus (d.point - 1))

/-- The numeral of a finite number. -/
def Binary64.numeral (style : FloatStyle) (x : Binary64) : Numeral :=
  if x.magnitude = 0 then ⟨x.negative, ['0'], ['0'], none⟩
  else
    let d := shortest style.tie x.magnitude
    if style.least < d.point ∧ d.point ≤ style.greatest + 1 then d.positional x.negative
    else d.scientific x.negative style.plus

/-- The text of any number in rule texts. -/
def Binary64.text (x : Binary64) : List Char :=
  if x.isFinite then (x.numeral .rule).text
  else if x.isNaN then ['N', 'a', 'N']
  else (if x.negative then ['-'] else []) ++ ['i', 'n', 'f']

example : (Binary64.ofBits 0x4000000000000000).text = ['2', '.', '0'] := by decide +kernel
example : (Binary64.ofBits 0x8000000000000000).text = ['-', '0', '.', '0'] := by
  decide +kernel
example : (Binary64.ofBits 0x444B1AE4D6E2EF50).text = ['1', 'e', '2', '1'] := by
  decide +kernel
example : ((Binary64.ofBits 0x444B1AE4D6E2EF50).numeral .json).text =
    ['1', 'e', '+', '2', '1'] := by
  decide +kernel

end Rulebook
