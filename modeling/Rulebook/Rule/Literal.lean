import Rulebook.Binary64.Decimal
import Rulebook.Rule.Token

/-!
# Literals

The token on the right of a comparison is a value whose kind shows in its form: a token
between quotes is a text, digits are an integer, digits with a point are a
floating-point number, and every other token but the symbols is a text that stands for
itself.
-/

namespace Rulebook.Literal

/-- The characters between the quotes of a quoted token. -/
def unquoted? : List Char → Option (List Char)
  | '\'' :: rest => if rest.getLast? = some '\'' then some rest.dropLast else none
  | _ => none

/-- Splits at the first point. -/
def splitPoint? (text : List Char) : Option (List Char × List Char) :=
  match text.dropWhile (· != '.') with
  | [] => none
  | _ :: rest => some (text.takeWhile (· != '.'), rest)

/-- The parts of a number with exactly one point and at least one digit. -/
def decimalParts? (text : List Char) : Option (List Char × List Char) :=
  match splitPoint? text with
  | some (whole, fraction) =>
      if Numeral.isDigits (whole ++ fraction) then some (whole, fraction) else none
  | none => none

/-- The value that a token stands for. -/
def ofToken (token : Token) : Except RuleFault Value :=
  let text := token.toList
  match unquoted? text with
  | some inner => .ok (.text (String.ofList inner))
  | none =>
    if token ∈ Token.symbols then .error (.expectedValue (some token))
    else
      let (negative, unsigned) := Numeral.splitMinus text
      if Numeral.isDigits unsigned then
        let size : Int := Numeral.digitsValue unsigned
        match Value.ofInt? (if negative then -size else size) with
        | some i => .ok i
        | none => .error (.integerOutOfRange token)
      else match decimalParts? unsigned with
        | some _ =>
            match Binary64.ofText? text with
            | some x => if x.isFinite then .ok (.float x) else .error (.decimalOutOfRange token)
            | none => .error (.invalidDecimal token)
        | none => .ok (.text token)

end Rulebook.Literal
