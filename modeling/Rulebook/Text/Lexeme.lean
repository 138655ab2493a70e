/-!
# Cutting a text into lexemes

A lexicon says which characters separate lexemes and which lexeme a text starts with.
`Lexicon.cut` cuts a whole text by it, and stops at the first character that starts
neither.

The cut walks the text one character at a time and counts how many characters of the
last lexeme are still to be passed, so it recurs on the text itself.
-/

namespace Rulebook.Text

/-- The lexemes of a language. -/
structure Lexicon where
  /-- The characters that may stand between two lexemes. -/
  isSeparator : Char → Bool
  /-- The lexeme at the start of a text that is not empty. -/
  lexeme? : List Char → Option (List Char)

/-- The place where a text cannot be cut. -/
structure Uncut where
  /-- How many bytes of UTF-8 stand before it. -/
  offset : Nat
  /-- The character found there. -/
  char : Char
  deriving DecidableEq, Repr

/-- The lexemes of a text whose first `passed` characters belong to a lexeme already
taken. -/
def Lexicon.cutFrom (l : Lexicon) : (passed offset : Nat) → List Char →
    Except Uncut (List (List Char))
  | _, _, [] => .ok []
  | passed + 1, offset, c :: rest => l.cutFrom passed (offset + c.utf8Size) rest
  | 0, offset, c :: rest =>
      if l.isSeparator c then l.cutFrom 0 (offset + c.utf8Size) rest
      else match l.lexeme? (c :: rest) with
        | none => .error ⟨offset, c⟩
        | some w => (l.cutFrom (w.length - 1) (offset + c.utf8Size) rest).map (w :: ·)

/-- The lexemes of a text, in order. -/
def Lexicon.cut (l : Lexicon) (text : List Char) : Except Uncut (List (List Char)) :=
  l.cutFrom 0 0 text

end Rulebook.Text
