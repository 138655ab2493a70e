import Rulebook.Text.Addition
import Rulebook.Text.Alphabetic
import Rulebook.Text.Mark
import Rulebook.Text.Number

/-!
# Character classes

The classes of characters that rule texts are made of.  `isBlank` separates tokens,
`isWordChar` makes up words and `isDigit` makes up numbers; `isNameStart` and
`isNameChar` decide which words may name a field.

Tokens follow version 16.0 of Unicode and field names version 17.0, so neither class
holds the other.  A word may hold marks, joiners and connectors other than the
underscore, which no field name holds.  A field name may hold numbers that are no digits
and the characters of the later version, which no word holds; such a name can be given as
a token, but not be written in a rule text.
-/

namespace Rulebook.Text

/-- The characters with the property `White_Space`. -/
def whiteSpace : Ranges :=
  [(0x0009, 0x000D), (0x0020, 0x0020), (0x0085, 0x0085), (0x00A0, 0x00A0), (0x1680, 0x1680),
   (0x2000, 0x200A), (0x2028, 0x2029), (0x202F, 0x202F), (0x205F, 0x205F), (0x3000, 0x3000)]

/-- The characters that connect words, the underscore among them (category `Pc`). -/
def connector : Ranges :=
  [(0x005F, 0x005F), (0x203F, 0x2040), (0x2054, 0x2054), (0xFE33, 0xFE34), (0xFE4D, 0xFE4F),
   (0xFF3F, 0xFF3F)]

/-- The invisible characters that join or part letters (property `Join_Control`). -/
def joiner : Ranges := [(0x200C, 0x200D)]

/-- White space. -/
def isBlank (c : Char) : Bool := whiteSpace.includes c.toNat

/-- A decimal digit of any script. -/
def isDigit (c : Char) : Bool := decimalDigit.includes c.toNat

/-- A character that words are made of. -/
def isWordChar (c : Char) : Bool :=
  alphabetic.includes c.toNat || mark.includes c.toNat || isDigit c ||
    connector.includes c.toNat || joiner.includes c.toNat

/-- A letter of any script, of the later version too. -/
def isLetter (c : Char) : Bool :=
  alphabetic.includes c.toNat || addedAlphabetic.includes c.toNat

/-- A number of any kind, of the later version too.  The new numbers that are no digits
are letters as well. -/
def isNumber (c : Char) : Bool :=
  isDigit c || addedDecimalDigit.includes c.toNat || letterNumber.includes c.toNat ||
    otherNumber.includes c.toNat

/-- A character that a field name may start with: a letter or the underscore. -/
def isNameStart (c : Char) : Bool := isLetter c || c == '_'

/-- A character that a field name may go on with: a letter, a number or the
underscore. -/
def isNameChar (c : Char) : Bool := isLetter c || isNumber c || c == '_'

/-- Whether a text holds nothing but white space. -/
def isBlankText (text : String) : Bool := text.toList.all isBlank

example : isBlank '\u3000' = true ∧ isBlank '\u200b' = false := by decide
example : isWordChar '_' = true ∧ isWordChar '-' = false := by decide
example : isNameChar '²' = true ∧ isWordChar '²' = false := by decide +kernel
example : isNameStart '\u088f' = true ∧ isWordChar '\u088f' = false := by decide +kernel
example : isNameChar '\u0301' = false ∧ isWordChar '\u0301' = true := by decide +kernel

end Rulebook.Text
