import Rulebook.Numeral
import Rulebook.Binary64.Rounding

/-!
# Numbers in JSON

`Numeral.ofJson?` reads a numeral by the grammar of JSON: no zero before other digits, a
digit on either side of the point.  `Numeral.number?` says which number a numeral stands
for.

A numeral without point and power is an integer if it lies between `-2 ^ 63` and
`2 ^ 64 - 1`; minus zero is not.  Every other numeral is a floating-point number that is
only nearly the nearest one: its digits are gathered in a significand below `2 ^ 64`, the
digits that do not fit are dropped, and the significand is rounded before it is
multiplied or divided by a rounded power of ten.  A number that is too large for that is
refused.
-/

namespace Rulebook

namespace Numeral

/-- Splits off a point and the digits after it; without a point there are none. -/
def splitFraction? : List Char → Option (List Char × List Char)
  | '.' :: rest =>
      let digits := rest.takeWhile Char.isDigit
      if digits.isEmpty then none else some (digits, rest.dropWhile Char.isDigit)
  | text => some ([], text)

/-- Splits off the sign of a power of ten. -/
def splitSign : List Char → Option Sign × List Char
  | '+' :: rest => (some .plus, rest)
  | '-' :: rest => (some .minus, rest)
  | text => (none, text)

/-- The power of ten that a whole text is; an empty text has none. -/
def exponent? : List Char → Option (Option Exponent)
  | [] => some none
  | e :: rest =>
      let (sign, digits) := splitSign rest
      if (e = 'e' ∨ e = 'E') ∧ isDigits digits then some (some ⟨sign, digits⟩) else none

/-- Whether digits may stand before the point: there is one, and a leading zero stands
alone. -/
def isWhole : List Char → Bool
  | [] => false
  | c :: rest => c != '0' || rest.isEmpty

/-- The numeral that a text is in the grammar of JSON. -/
def ofJson? (text : List Char) : Option Numeral :=
  let (negative, unsigned) := splitMinus text
  let whole := unsigned.takeWhile Char.isDigit
  if isWhole whole then
    match splitFraction? (unsigned.dropWhile Char.isDigit) with
    | none => none
    | some (fraction, tail) =>
        (exponent? tail).map fun exponent => ⟨negative, whole, fraction, exponent⟩
  else none

end Numeral

namespace Json

/-- A number as it is read. -/
inductive Number where
  /-- An integer between `-2 ^ 63` and `2 ^ 64 - 1`. -/
  | int (i : Int)
  /-- A finite floating-point number. -/
  | float (x : Binary64)
  deriving DecidableEq

/-- Appends digits to a significand as long as it stays below `2 ^ 64`.  The digits left
over come second. -/
def gather : Nat → List Char → Nat × List Char
  | significand, [] => (significand, [])
  | significand, d :: rest =>
      let next := significand * 10 + (d.toNat - 48)
      if next < UInt64.size then gather next rest else (significand, d :: rest)

/-- The greatest power of ten that is a finite number. -/
def maxPower : Nat := 308

/-- The number nearest to a power of ten. -/
def powerOfTen (n : Nat) : Binary64 := .ofNat (Nat.pow 10 n)

/-- A significand times a power of ten, each step rounded.  A power below the least one
is divided out in two steps; a lower one still makes every significand zero. -/
def scaled? (significand : Nat) (power : Int) : Option Binary64 :=
  let x := Binary64.ofNat significand
  let size := power.natAbs
  if significand = 0 then some x
  else if 0 ≤ power then
    if size ≤ maxPower then
      let y := x.mul (powerOfTen size)
      if y.isFinite then some y else none
    else none
  else if size ≤ maxPower then some (x.div (powerOfTen size))
  else if size ≤ 2 * maxPower then
    some ((x.div (powerOfTen maxPower)).div (powerOfTen (size - maxPower)))
  else some (.ofNat 0)

/-- The value of a written power of ten. -/
def exponentValue : Option Exponent → Int
  | none => 0
  | some ⟨some .minus, digits⟩ => -Numeral.digitsValue digits
  | some ⟨_, digits⟩ => Numeral.digitsValue digits

/-- A number with the sign of its numeral. -/
def signed (negative : Bool) (x : Binary64) : Binary64 := if negative then x.neg else x

end Json

/-- The number that a numeral stands for. -/
def Numeral.number? (n : Numeral) : Option Json.Number :=
  let (integral, dropped) := Json.gather 0 n.whole
  if n.fraction.isEmpty && n.exponent.isNone && dropped.isEmpty then
    if n.negative then
      if 0 < integral ∧ integral ≤ 1 <<< 63 then some (.int (-integral))
      else some (.float (Binary64.ofNat integral).neg)
    else some (.int integral)
  else
    let (significand, left) := Json.gather integral n.fraction
    let kept := n.fraction.length - left.length
    let power : Int := (dropped.length : Int) - kept + Json.exponentValue n.exponent
    (Json.scaled? significand power).map fun x => .float (Json.signed n.negative x)

example : (Numeral.ofJson? ['0', '1']) = none := by decide
example : (Numeral.ofJson? ['-', '0']).bind Numeral.number? =
    some (.float (.ofBits 0x8000000000000000)) := by decide +kernel
example : (Numeral.ofJson? ['1', 'e', '9', '9', '9']).bind Numeral.number? = none := by
  decide +kernel
example : (Numeral.ofJson? ['2', '.', '5']).bind Numeral.number? =
    some (.float (.nearest false 5 2)) := by decide +kernel

end Rulebook
