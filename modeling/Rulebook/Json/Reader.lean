import Rulebook.Json.Document

/-!
# Reading JSON

The tokens of a text are read one after the other.  A `Reading` holds the arrays and
objects that are still open, the innermost first, and what must come next.
-/

namespace Rulebook.Json

/-- An array or object that waits for a value.  What it holds so far comes last first. -/
inductive Container where
  | array (before : List Document)
  | object (before : List Member) (key : List TextUnit)

/-- What must come next in the innermost container. -/
inductive Expected where
  /-- A value. -/
  | value
  /-- The first item of an array, or its end. -/
  | firstItem
  /-- The first key of an object, or its end. -/
  | firstKey
  /-- Another key of an object. -/
  | key (before : List Member)
  /-- The colon after a key. -/
  | colon (before : List Member) (key : List TextUnit)
  /-- Whatever may follow a value. -/
  | after (d : Document)

/-- What has been read of a text. -/
structure Reading where
  /-- The containers that wait for a value, the innermost first. -/
  containers : List Container
  /-- What must come next. -/
  expected : Expected

namespace Reading

/-- Nothing has been read. -/
def start : Reading := ⟨[], .value⟩

/-- Reads the first token of a value. -/
def begin? (containers : List Container) : Token → Option Reading
  | .null => some ⟨containers, .after .null⟩
  | .bool b => some ⟨containers, .after (.bool b)⟩
  | .number n => some ⟨containers, .after (.number n)⟩
  | .string units => some ⟨containers, .after (.string units)⟩
  | .openBracket => some ⟨containers, .firstItem⟩
  | .openBrace => some ⟨containers, .firstKey⟩
  | _ => none

/-- Reads the token after a value of the innermost container. -/
def continue? (d : Document) : List Container → Token → Option Reading
  | .array before :: outer, .comma => some ⟨.array (d :: before) :: outer, .value⟩
  | .array before :: outer, .closeBracket =>
      some ⟨outer, .after (.array (d :: before).reverse)⟩
  | .object before key :: outer, .comma => some ⟨outer, .key ((key, d) :: before)⟩
  | .object before key :: outer, .closeBrace =>
      some ⟨outer, .after (.object ((key, d) :: before).reverse)⟩
  | _, _ => none

/-- Reads one token. -/
def step? (r : Reading) (token : Token) : Option Reading :=
  match r.expected, token with
  | .value, token => begin? r.containers token
  | .firstItem, .closeBracket => some ⟨r.containers, .after (.array [])⟩
  | .firstItem, token => begin? (.array [] :: r.containers) token
  | .firstKey, .closeBrace => some ⟨r.containers, .after (.object [])⟩
  | .firstKey, .string key => some ⟨r.containers, .colon [] key⟩
  | .key before, .string key => some ⟨r.containers, .colon before key⟩
  | .colon before key, .colon => some ⟨.object before key :: r.containers, .value⟩
  | .after d, token => continue? d r.containers token
  | _, _ => none

/-- Reads tokens one after the other. -/
def steps? : Reading → List Token → Option Reading
  | r, [] => some r
  | r, token :: rest =>
      match r.step? token with
      | some r' => r'.steps? rest
      | none => none

/-- The document that has been read, if it is complete. -/
def document? : Reading → Option Document
  | ⟨[], .after d⟩ => some d
  | _ => none

end Reading

/-- The document that a list of tokens is. -/
def Document.ofTokens? (tokens : List Token) : Option Document :=
  (Reading.start.steps? tokens).bind Reading.document?

/-- The document that a text is. -/
def Document.parse? (text : List Char) : Option Document :=
  (Token.scan? text).bind Document.ofTokens?

end Rulebook.Json
