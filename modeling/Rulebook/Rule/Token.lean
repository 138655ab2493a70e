import Rulebook.Error
import Rulebook.Text.Class
import Rulebook.Text.Lexeme

/-!
# Tokens

A rule text is cut into symbols, quoted texts, numbers and words; white space stands
between them where needed.  `Token.lexeme?` takes the first of these that the text starts
with: a symbol of two characters, a quoted text, a number with a sign, a number with a
point, a symbol of one character, a word.  A number without sign and point is a word,
since words may start with a digit.
-/

namespace Rulebook

/-- A token, as it is written. -/
abbrev Token := String

namespace Token

open Text

/-- The symbol of two characters at the start of a text. -/
def doubleSymbol? : List Char → Option (List Char)
  | '=' :: '>' :: _ => some ['=', '>']
  | '<' :: '=' :: _ => some ['<', '=']
  | '>' :: '=' :: _ => some ['>', '=']
  | '&' :: '&' :: _ => some ['&', '&']
  | '|' :: '|' :: _ => some ['|', '|']
  | _ => none

/-- The symbol of one character at the start of a text. -/
def singleSymbol? : List Char → Option (List Char)
  | c :: _ => if c ∈ ['(', ')', '=', '>', '<', '!'] then some [c] else none
  | [] => none

/-- The quoted text at the start of a text, quotes included.  It ends at the next
quote. -/
def quoted? : List Char → Option (List Char)
  | '\'' :: rest =>
      if rest.contains '\'' then some ('\'' :: rest.takeWhile (· != '\'') ++ ['\'']) else none
  | _ => none

/-- The digits at the start of a text. -/
def digits? (text : List Char) : Option (List Char) :=
  let digits := text.takeWhile isDigit
  if digits.isEmpty then none else some digits

/-- The point and the digits at the start of a text. -/
def fraction? : List Char → Option (List Char)
  | '.' :: rest => (digits? rest).map ('.' :: ·)
  | _ => none

/-- The number with a sign at the start of a text; it may have a fraction. -/
def signed? : List Char → Option (List Char)
  | '-' :: rest =>
      (digits? rest).map fun digits =>
        '-' :: digits ++ (fraction? (rest.drop digits.length)).getD []
  | _ => none

/-- The number with a fraction at the start of a text. -/
def decimal? (text : List Char) : Option (List Char) :=
  (digits? text).bind fun digits => (fraction? (text.drop digits.length)).map (digits ++ ·)

/-- The word at the start of a text. -/
def word? (text : List Char) : Option (List Char) :=
  let word := text.takeWhile isWordChar
  if word.isEmpty then none else some word

/-- The token at the start of a text. -/
def lexeme? (text : List Char) : Option (List Char) :=
  doubleSymbol? text <|> quoted? text <|> signed? text <|> decimal? text <|>
    singleSymbol? text <|> word? text

/-- The lexemes of rule texts. -/
def lexicon : Lexicon where
  isSeparator := isBlank
  lexeme? := lexeme?

/-- The tokens of a rule text. -/
def scan (text : String) : Except Error (List Token) :=
  match lexicon.cut text.toList with
  | .ok lexemes => .ok (lexemes.map String.ofList)
  | .error ⟨offset, char⟩ => .error (.unrecognized offset char)

/-- The symbols among the tokens. -/
def symbols : List Token := ["(", ")", "=", ">", "<", "!", "=>", "<=", ">=", "&&", "||"]

example : (lexicon.cut ['a', '>', '=', '-', '1', '.', '5']).toOption =
    some [['a'], ['>', '='], ['-', '1', '.', '5']] := by decide +kernel
example : (lexicon.cut [' ', 'é', ' ', '#']).toOption = none := by decide +kernel

end Token

end Rulebook
