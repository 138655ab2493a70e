/-!
# Numerals

A numeral is a number as it is written: a sign, decimal digits, digits after a point
and a power of ten.  Rule texts and JSON texts both write their numbers through
`Numeral.text`.
-/

namespace Rulebook

/-- A written sign. -/
inductive Sign where
  | plus
  | minus
  deriving DecidableEq, Repr

/-- The character of a sign. -/
def Sign.char : Sign → Char
  | .plus => '+'
  | .minus => '-'

/-- A written power of ten. -/
structure Exponent where
  /-- The sign, where one is written. -/
  sign : Option Sign
  /-- The digits. -/
  digits : List Char
  deriving DecidableEq, Repr

/-- A number as it is written. -/
structure Numeral where
  /-- Whether a minus sign comes first. -/
  negative : Bool
  /-- The digits before the point. -/
  whole : List Char
  /-- The digits after the point; without any, no point is written. -/
  fraction : List Char
  /-- The power of ten, where one is written. -/
  exponent : Option Exponent
  deriving DecidableEq, Repr

/-- The characters of a power of ten. -/
def Exponent.text (e : Exponent) : List Char :=
  'e' :: (e.sign.map Sign.char).toList ++ e.digits

/-- The exponent that is written for an integer; `plus` says whether a sign stands before
one that is not negative. -/
def Exponent.ofInt (plus : Bool) (e : Int) : Exponent where
  sign := if e < 0 then some .minus else if plus then some .plus else none
  digits := Nat.toDigits 10 e.natAbs

namespace Numeral

/-- The characters of a numeral. -/
def text (n : Numeral) : List Char :=
  (if n.negative then ['-'] else []) ++ n.whole ++
    (if n.fraction.isEmpty then [] else '.' :: n.fraction) ++
    (n.exponent.map Exponent.text).getD []

/-- The numeral of an integer. -/
def ofInt (i : Int) : Numeral where
  negative := decide (i < 0)
  whole := Nat.toDigits 10 i.natAbs
  fraction := []
  exponent := none

/-! ## Reading digits -/

/-- The number that decimal digits stand for. -/
def digitsValue (digits : List Char) : Nat := Nat.ofDigitChars 10 digits 0

/-- Whether a text is made of one or more digits `0` to `9`. -/
def isDigits (text : List Char) : Bool := !text.isEmpty && text.all Char.isDigit

/-- Splits off a minus sign. -/
def splitMinus : List Char → Bool × List Char
  | '-' :: rest => (true, rest)
  | text => (false, text)

end Numeral

example : (Numeral.ofInt (-120)).text = ['-', '1', '2', '0'] := by decide
example : (Numeral.text ⟨false, ['1'], ['5'], some (.ofInt true 16)⟩) =
    ['1', '.', '5', 'e', '+', '1', '6'] := by decide

end Rulebook
