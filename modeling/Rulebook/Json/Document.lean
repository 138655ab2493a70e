import Rulebook.Json.Text
import Rulebook.Json.Number
import Rulebook.Text.Lexeme

/-!
# JSON documents

A document is what the grammar of JSON makes of a text.  Numbers stay numerals and strings
stay units, so a document may hold numbers that are too large and halves of characters;
who needs their values finds that out.

`Document.text` writes a document without any space.  Writing goes through tokens, the
same ones that reading starts from (`Rulebook.Json.Reader`).
-/

namespace Rulebook.Json

/-- A JSON value as it is written. -/
inductive Document where
  | null
  | bool (b : Bool)
  | number (n : Numeral)
  | string (units : List TextUnit)
  | array (items : List Document)
  /-- The members in order, with repeated keys. -/
  | object (members : List (List TextUnit × Document))

/-- A key of an object and its value. -/
abbrev Member := List TextUnit × Document

/-- A token of JSON. -/
inductive Token where
  | openBrace
  | closeBrace
  | openBracket
  | closeBracket
  | comma
  | colon
  | null
  | bool (b : Bool)
  | number (n : Numeral)
  | string (units : List TextUnit)
  deriving DecidableEq

namespace Token

/-- A token as it is written. -/
def text : Token → List Char
  | openBrace => ['{']
  | closeBrace => ['}']
  | openBracket => ['[']
  | closeBracket => [']']
  | comma => [',']
  | colon => [':']
  | null => ['n', 'u', 'l', 'l']
  | bool true => ['t', 'r', 'u', 'e']
  | bool false => ['f', 'a', 'l', 's', 'e']
  | number n => n.text
  | string units => '"' :: units.flatMap TextUnit.text ++ ['"']

/-- A string up to and with the quote that closes it, after the quote that opens it.  A
backslash takes away the meaning of the character behind it. -/
def closing? : List Char → Option (List Char)
  | [] => none
  | '"' :: _ => some ['"']
  | '\\' :: c :: rest => (closing? rest).map ('\\' :: c :: ·)
  | c :: rest => (closing? rest).map (c :: ·)

/-- The characters that numerals are made of. -/
def isNumeralChar (c : Char) : Bool :=
  c.isDigit || c == '-' || c == '+' || c == '.' || c == 'e' || c == 'E'

/-- The lexeme at the start of a text: a string, a run of characters of numerals or of
small letters, or a single mark. -/
def lexeme? : List Char → Option (List Char)
  | [] => none
  | c :: rest =>
      if c ∈ ['{', '}', '[', ']', ',', ':'] then some [c]
      else if c = '"' then (closing? rest).map ('"' :: ·)
      else if c = '-' ∨ c.isDigit then some (c :: rest.takeWhile isNumeralChar)
      else if c.isLower then some (c :: rest.takeWhile Char.isLower)
      else none

/-- The lexemes of JSON texts. -/
def lexicon : Text.Lexicon where
  isSeparator c := c == ' ' || c == '\t' || c == '\n' || c == '\r'
  lexeme? := lexeme?

/-- The token that a lexeme is. -/
def ofLexeme? : List Char → Option Token
  | ['{'] => some openBrace
  | ['}'] => some closeBrace
  | ['['] => some openBracket
  | [']'] => some closeBracket
  | [','] => some comma
  | [':'] => some colon
  | ['n', 'u', 'l', 'l'] => some null
  | ['t', 'r', 'u', 'e'] => some (bool true)
  | ['f', 'a', 'l', 's', 'e'] => some (bool false)
  | '"' :: rest => (TextUnit.ofChars? rest.dropLast).map string
  | lexeme => (Numeral.ofJson? lexeme).map number

/-- The tokens that lexemes are. -/
def ofLexemes? : List (List Char) → Option (List Token)
  | [] => some []
  | lexeme :: rest =>
      match ofLexeme? lexeme with
      | none => none
      | some token => (ofLexemes? rest).map (token :: ·)

/-- The tokens of a text. -/
def scan? (text : List Char) : Option (List Token) :=
  match lexicon.cut text with
  | .ok lexemes => ofLexemes? lexemes
  | .error _ => none

end Token

namespace Document

mutual

/-- The tokens of a document. -/
def tokens : Document → List Token
  | null => [.null]
  | bool b => [.bool b]
  | number n => [.number n]
  | string units => [.string units]
  | array items => .openBracket :: itemTokens items
  | object members => .openBrace :: memberTokens members

/-- The tokens of the items of an array, up to its end. -/
def itemTokens : List Document → List Token
  | [] => [.closeBracket]
  | d :: rest => tokens d ++ moreItemTokens rest

/-- The tokens of the items after another one. -/
def moreItemTokens : List Document → List Token
  | [] => [.closeBracket]
  | d :: rest => .comma :: tokens d ++ moreItemTokens rest

/-- The tokens of the members of an object, up to its end. -/
def memberTokens : List Member → List Token
  | [] => [.closeBrace]
  | (key, d) :: rest => .string key :: .colon :: tokens d ++ moreMemberTokens rest

/-- The tokens of the members after another one. -/
def moreMemberTokens : List Member → List Token
  | [] => [.closeBrace]
  | (key, d) :: rest => .comma :: .string key :: .colon :: tokens d ++ moreMemberTokens rest

end

/-- A document as a text without spaces. -/
def text (d : Document) : List Char := d.tokens.flatMap Token.text

end Document

end Rulebook.Json
