import Rulebook.Json.Document

/-!
# The members of objects

What a document has to hold is looked up by key.  A key that occurs twice is told apart
from one that is missing (`Slot`), and keys are compared as texts, whatever escapes they
are written with.

`Document.isReadable` asks whether all parts of a document have values.
-/

namespace Rulebook.Json

/-- How deep arrays and objects may nest where they are read. -/
def maxNesting : Nat := 127

/-- How often a key occurs among the members of an object. -/
inductive Slot where
  | missing
  | once (d : Document)
  | repeated

/-- What the members of an object bind one of the given names to. -/
def Slot.find (names : List String) (members : List (String × Document)) : Slot :=
  match members.filter fun m => names.contains m.1 with
  | [] => .missing
  | [m] => .once m.2
  | _ => .repeated

/-- The child that a slot holds; one that is left out is `null`. -/
def Slot.child? : Slot → Option Document
  | .missing => some .null
  | .once d => some d
  | .repeated => none

namespace Document

/-- The members of an object with their keys as texts. -/
def textMembers? : List Member → Option (List (String × Document))
  | [] => some []
  | (key, d) :: rest =>
      match textOf? key, textMembers? rest with
      | some key, some rest => some ((key, d) :: rest)
      | _, _ => none

/-- The text of a string. -/
def text? : Document → Option String
  | string units => textOf? units
  | _ => none

/-- Whether everything in a document has a value: numbers are not too large, no half of a
character stands alone, and it nests at most as deep as given. -/
def isReadable : (levels : Nat) → Document → Bool
  | _, null => true
  | _, bool _ => true
  | _, number n => n.number?.isSome
  | _, string units => (textOf? units).isSome
  | 0, _ => false
  | levels + 1, array items => items.all (isReadable levels)
  | levels + 1, object members =>
      members.all fun m => (textOf? m.1).isSome && isReadable levels m.2

end Document

end Rulebook.Json
