import Rulebook.Binary64.Rounding
import Rulebook.Json.Number

/-!
# Reading floating-point numbers

`Binary64.ofText?` reads a number in decimal: a sign or none, digits with or without a point
among or beside them, and a power of ten or none.  The result is the nearest number, which is
infinite for a decimal that is too large.  Infinity and what is no number are also read, by
their names in small or capital letters.
-/

namespace Rulebook

/-- Splits off a point and the digits after it, where there are any. -/
def Numeral.splitPlaces : List Char → List Char × List Char
  | '.' :: rest => (rest.takeWhile Char.isDigit, rest.dropWhile Char.isDigit)
  | text => ([], text)

namespace Binary64

/-- Infinity with the given sign. -/
def infinity (negative : Bool) : Binary64 where
  negative := negative
  magnitude := infiniteMagnitude

/-- What is no number, with the given sign. -/
def notNumber (negative : Bool) : Binary64 where
  negative := negative
  magnitude := infiniteMagnitude + 1 <<< 51

/-- The number nearest to a significand times a power of ten. -/
def ofDecimal (negative : Bool) (significand : Nat) (power : Int) : Binary64 :=
  nearest negative (significand * Nat.pow 10 power.toNat) (Nat.pow 10 (-power).toNat)

/-- The number that a text without sign is in decimal. -/
def ofUnsigned? (negative : Bool) (text : List Char) : Option Binary64 :=
  let whole := text.takeWhile Char.isDigit
  let (places, tail) := Numeral.splitPlaces (text.dropWhile Char.isDigit)
  if Numeral.isDigits (whole ++ places) then
    (Numeral.exponent? tail).map fun exponent =>
      ofDecimal negative (Numeral.digitsValue (whole ++ places))
        (Json.exponentValue exponent - places.length)
  else none

/-- The number that a text is. -/
def ofText? (text : List Char) : Option Binary64 :=
  let (sign, unsigned) := Numeral.splitSign text
  let negative := decide (sign = some .minus)
  let name := unsigned.map Char.toLower
  if name = "inf".toList ∨ name = "infinity".toList then some (infinity negative)
  else if name = "nan".toList then some (notNumber negative)
  else ofUnsigned? negative unsigned

example : ofText? ['-', '.', '5', 'E', '+', '1'] = some (ofInt (-5)) := by decide +kernel
example : ofText? ['1', '.', 'e'] = none := by decide +kernel
example : ofText? ['-', 'I', 'n', 'f'] = some (infinity true) := by decide +kernel

end Binary64

end Rulebook
