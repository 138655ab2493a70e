import Rulebook.Json.Members
import Rulebook.Json.Reader
import Rulebook.Portable.Tree
import Rulebook.Text.Class

/-!
# The portable form as JSON

A node is written as an object with the keys `node_type`, `left`, `right` and `value`; an
absent tree is `null`.  Reading is more liberal: the members may come in any order, the
children may be left out, unknown keys are passed over, the keys of a payload may have
their older names, and a node may be an array of its four parts.

Nodes and payloads nest at most `maxNesting` levels deep.  What an unknown key of a node
holds is not looked at; whatever a payload holds is read, known or not.
-/

namespace Rulebook

open Json

/-- A value in JSON.  A number that is not finite has none, and becomes `null`. -/
def Value.document : Value → Document
  | int i => .number (.ofInt i.toInt)
  | float x => if x.isFinite then .number (x.numeral .json) else .null
  | text s => .string (unitsOf s)

/-- The value of a number or a string.  Integers beyond 64 bits with a sign become
floating-point numbers. -/
def Value.ofDocument? : Document → Option Value
  | .number n =>
      n.number?.map fun
        | .int i => (Value.ofInt? i).getD (.float (Binary64.ofInt i))
        | .float x => .float x
  | .string units => (textOf? units).map .text
  | _ => none

namespace Payload

/-- A payload in JSON. -/
def document : Payload → Document
  | condition field comparator literal =>
      .object [(unitsOf "field", .string (unitsOf field)),
        (unitsOf "comparator", .string (unitsOf comparator)),
        (unitsOf "literal", literal.document)]
  | operator kind => .object [(unitsOf "kind", .string (unitsOf kind))]

/-- The comparison of an object with the keys of one. -/
def condition? (members : List (String × Document)) : Option Payload :=
  match Slot.find ["field", "lvariable"] members,
      Slot.find ["comparator", "comparison_type"] members,
      Slot.find ["literal", "rvalue"] members with
  | .once field, .once comparator, .once literal =>
      match field.text?, comparator.text?, Value.ofDocument? literal with
      | some field, some comparator, some literal => some (condition field comparator literal)
      | _, _, _ => none
  | _, _, _ => none

/-- The operator of an object with the key of one. -/
def operator? (members : List (String × Document)) : Option Payload :=
  match Slot.find ["kind", "type"] members with
  | .once kind => kind.text?.map operator
  | _ => none

/-- The payload that a document is: a comparison if it can be one, otherwise an
operator. -/
def ofDocument? (levels : Nat) (d : Document) : Option Payload :=
  if d.isReadable levels then
    match d with
    | .object members =>
        (Document.textMembers? members).bind fun members =>
          condition? members <|> operator? members
    | _ => none
  else none

end Payload

namespace PortableTree

/-- A portable form in JSON. -/
def document : PortableTree → Document
  | absent => .null
  | node nodeType left right payload =>
      .object [(unitsOf "node_type", .string (unitsOf nodeType)),
        (unitsOf "left", left.document), (unitsOf "right", right.document),
        (unitsOf "value", payload.document)]

/-- The node of the given parts, where `read` reads the children. -/
def ofParts? (read : Document → Option PortableTree) (levels : Nat)
    (nodeType left right payload : Document) : Option PortableTree :=
  match nodeType.text?, read left, read right, Payload.ofDocument? levels payload with
  | some nodeType, some left, some right, some payload =>
      some (node nodeType left right payload)
  | _, _, _, _ => none

/-- The portable form that a document is, nesting at most as deep as given. -/
def ofDocument? : (levels : Nat) → Document → Option PortableTree
  | _, .null => some absent
  | levels + 1, .array [nodeType, left, right, payload] =>
      ofParts? (ofDocument? levels) levels nodeType left right payload
  | levels + 1, .object members =>
      (Document.textMembers? members).bind fun members =>
        match Slot.find ["node_type"] members, Slot.find ["left"] members,
            Slot.find ["right"] members, Slot.find ["value"] members with
        | .once nodeType, left, right, .once payload =>
            match left.child?, right.child? with
            | some left, some right =>
                ofParts? (ofDocument? levels) levels nodeType left right payload
            | _, _ => none
        | _, _, _, _ => none
  | _, _ => none

/-- The JSON text of a portable form. -/
def json (p : PortableTree) : String := String.ofList p.document.text

/-- The portable form that a JSON text holds.  A blank text is the absent tree. -/
def ofJson (text : String) : Except Error PortableTree :=
  if Text.isBlankText text then .ok absent
  else
    match (Document.parse? text.toList).bind (ofDocument? maxNesting) with
    | some p => .ok p
    | none => .error (.faultyData .unreadable)

end PortableTree

/-- The JSON text of an optional rule. -/
def Tree.toJson (root : Option Tree) : String := (PortableTree.ofTree root).json

/-- The rule that a JSON text holds. -/
def Tree.ofJson (text : String) : Except Error (Option Tree) :=
  match PortableTree.ofJson text with
  | .ok p => p.toTree
  | .error e => .error e

end Rulebook
