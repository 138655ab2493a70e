/-!
# Strings in JSON

Inside a JSON string a character stands for itself or is escaped.  An escape of four
hexadecimal digits is a unit of UTF-16, so it may be one half of a character only.  A
string is therefore read in two steps: `TextUnit.ofChars?` checks the form and leaves
halves alone, and `TextUnit.decode?` joins them to characters, which fails where a half
stands alone.

`TextUnit.text` writes a unit: quote, backslash and the characters below the space are
escaped, everything else stands for itself.
-/

namespace Rulebook.Json

/-- A unit of a string. -/
inductive TextUnit where
  /-- A character. -/
  | char (c : Char)
  /-- One half of a character: a code from `0xD800` to `0xDFFF`. -/
  | half (code : Nat)
  deriving DecidableEq, Repr

/-- The hexadecimal digit of a number below sixteen. -/
def hexDigit (n : Nat) : Char := Nat.digitChar n

/-- The number of a hexadecimal digit. -/
def hexValue? (c : Char) : Option Nat :=
  if '0' ≤ c ∧ c ≤ '9' then some (c.toNat - 48)
  else if 'a' ≤ c ∧ c ≤ 'f' then some (c.toNat - 87)
  else if 'A' ≤ c ∧ c ≤ 'F' then some (c.toNat - 55)
  else none

/-- The number of four hexadecimal digits. -/
def hexCode? (a b c d : Char) : Option Nat := do
  let a ← hexValue? a
  let b ← hexValue? b
  let c ← hexValue? c
  let d ← hexValue? d
  return ((a * 16 + b) * 16 + c) * 16 + d

/-- The escape of four hexadecimal digits. -/
def hexEscape (code : Nat) : List Char :=
  ['\\', 'u', hexDigit (code / 4096 % 16), hexDigit (code / 256 % 16),
    hexDigit (code / 16 % 16), hexDigit (code % 16)]

/-- The characters with an escape of one letter, with this letter. -/
def shortEscapes : List (Char × Char) :=
  [('"', '"'), ('\\', '\\'), ('\x08', 'b'), ('\x0c', 'f'), ('\n', 'n'), ('\r', 'r'),
    ('\t', 't')]

/-- The character of a one-letter escape.  A slash may be escaped too, though it is
written without. -/
def ofShortEscape? : Char → Option Char
  | '"' => some '"'
  | '\\' => some '\\'
  | '/' => some '/'
  | 'b' => some '\x08'
  | 'f' => some '\x0c'
  | 'n' => some '\n'
  | 'r' => some '\r'
  | 't' => some '\t'
  | _ => none

namespace TextUnit

/-- The unit with a code of UTF-16. -/
def ofCode (code : Nat) : TextUnit :=
  if 0xD800 ≤ code ∧ code ≤ 0xDFFF then half code else char (Char.ofNat code)

/-- A unit as it is written inside a string. -/
def text : TextUnit → List Char
  | half code => hexEscape code
  | char c =>
      match shortEscapes.lookup c with
      | some letter => ['\\', letter]
      | none => if c < ' ' then hexEscape c.toNat else [c]

/-- The units that the characters between two quotes stand for. -/
def ofChars? : List Char → Option (List TextUnit)
  | [] => some []
  | '\\' :: 'u' :: a :: b :: c :: d :: rest =>
      match hexCode? a b c d with
      | some code => (ofChars? rest).map (ofCode code :: ·)
      | none => none
  | '\\' :: letter :: rest =>
      match ofShortEscape? letter with
      | some c => (ofChars? rest).map (char c :: ·)
      | none => none
  | c :: rest =>
      if c < ' ' ∨ c = '\\' ∨ c = '"' then none else (ofChars? rest).map (char c :: ·)

/-- The character of a first and a second half. -/
def joined (high low : Nat) : Char :=
  Char.ofNat (0x10000 + (high - 0xD800) * 0x400 + (low - 0xDC00))

/-- The characters that units stand for.  A first half must be followed by a second one,
and a second half cannot stand anywhere else. -/
def decode? : List TextUnit → Option (List Char)
  | [] => some []
  | char c :: rest => (decode? rest).map (c :: ·)
  | half high :: half low :: rest =>
      if high < 0xDC00 ∧ 0xDC00 ≤ low then (decode? rest).map (joined high low :: ·)
      else none
  | half _ :: _ => none

end TextUnit

/-- The units of a text. -/
def unitsOf (s : String) : List TextUnit := s.toList.map .char

/-- The text of units. -/
def textOf? (units : List TextUnit) : Option String :=
  (TextUnit.decode? units).map String.ofList

example : TextUnit.ofChars? ['\\', 'u', '0', '0', '4', '1'] = some [.char 'A'] := by decide
example : TextUnit.ofChars? ['\\', 'u', '0'] = none := by decide
example : (TextUnit.char '\x1f').text = ['\\', 'u', '0', '0', '1', 'f'] := by decide
example : TextUnit.decode? [.half 0xD83D, .half 0xDE00] = some ['😀'] := by decide
example : TextUnit.decode? [.half 0xD83D, .char 'x'] = none := by decide

end Rulebook.Json
