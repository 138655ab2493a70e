import Rulebook.Error

/-!
# The portable form of a rule

Rules are stored and exchanged in a portable form whose parts are texts, so it may hold
trees that are no rules: unknown node types and operators, leaves with children, joins
with a missing side.  `Tree.portable` gives the form of a rule, and
`PortableTree.toTree` checks a form and gives the rule back.
-/

namespace Rulebook

/-- What a node holds. -/
inductive Payload where
  /-- The parts of a comparison. -/
  | condition (field comparator : String) (literal : Value)
  /-- The keyword of an operator. -/
  | operator (kind : String)
  deriving DecidableEq

/-- The portable form of an optional rule. -/
inductive PortableTree where
  /-- No node: a missing child, or the rule that every record satisfies. -/
  | absent
  | node (nodeType : String) (left right : PortableTree) (payload : Payload)
  deriving DecidableEq

/-- The node type of leaves. -/
def operandType : String := "operand"

/-- The node type of joins. -/
def operatorType : String := "operator"

/-- The portable form of a rule. -/
def Tree.portable : Tree → PortableTree
  | leaf c =>
      .node operandType .absent .absent (.condition c.field c.comparator.symbol c.literal)
  | operator op left right =>
      .node operatorType left.portable right.portable (.operator op.keyword)

/-- Whether two payloads are equal, literals by `Value.equals`. -/
def Payload.equals : Payload → Payload → Bool
  | condition field comparator literal, condition field' comparator' literal' =>
      field == field' && comparator == comparator' && literal.equals literal'
  | operator kind, operator kind' => kind == kind'
  | _, _ => false

namespace PortableTree

/-- The portable form of an optional rule. -/
def ofTree (root : Option Tree) : PortableTree := (root.map Tree.portable).getD absent

/-- Whether there is no node. -/
def isAbsent : PortableTree → Bool
  | absent => true
  | node _ _ _ _ => false

/-- Whether two forms are equal, literals by `Value.equals`. -/
def equals : PortableTree → PortableTree → Bool
  | absent, absent => true
  | node nodeType left right payload, node nodeType' left' right' payload' =>
      nodeType == nodeType' && left.equals left' && right.equals right' &&
        payload.equals payload'
  | _, _ => false

/-- The rule of a leaf. -/
def toLeaf (left right : PortableTree) (field comparator : String) (literal : Value) :
    Except Error Tree :=
  if !left.isAbsent || !right.isAbsent then
    .error (.faultyData (.operandWithChildren field))
  else if field.isEmpty then .error (.faultyData .emptyField)
  else match Comparator.ofSymbol? comparator with
    | none => .error (.unsupportedComparator comparator)
    | some c => .ok (.leaf ⟨field, c, literal⟩)

/-- The rule of a portable form, if it is one.  A node is checked before the nodes below
it, and the left side before the right one. -/
def toTree : PortableTree → Except Error (Option Tree)
  | absent => .ok none
  | node nodeType left right payload =>
      if nodeType = operandType then
        match payload with
        | .condition field comparator literal =>
            (toLeaf left right field comparator literal).map some
        | .operator _ => .error (.faultyData (.mismatchedPayload nodeType))
      else if nodeType = operatorType then
        match payload with
        | .condition _ _ _ => .error (.faultyData (.mismatchedPayload nodeType))
        | .operator kind =>
            match LogicalOp.ofKeyword? kind with
            | none => .error (.faultyData (.unknownOperator kind))
            | some op =>
                if left.isAbsent || right.isAbsent then
                  .error (.faultyData (.missingChild op))
                else do
                  let l ← left.toTree
                  let r ← right.toTree
                  match l, r with
                  | some l, some r => .ok (some (.operator op l r))
                  | _, _ => .error (.faultyData (.missingChild op))
      else .error (.faultyData (.unknownNodeType nodeType))

end PortableTree

end Rulebook
