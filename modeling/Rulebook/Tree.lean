import Rulebook.Value

/-!
# Rule trees

A rule is a tree: its leaves compare one field of a record with a value, and its inner
nodes join two trees by AND or OR.  Where a tree is optional, its absence is the rule
that every record satisfies.

The engine joins trees up to a height of `maxDepth` (`MeasuredTree.join?`); trees built by
hand may be higher.  A tree that is to be joined has its height beside it, so no tree is
measured again with each join above it.
-/

namespace Rulebook

/-- The comparisons a condition can make. -/
inductive Comparator where
  | greater
  | less
  | equal
  deriving DecidableEq, Repr

namespace Comparator

/-- The symbol of a comparator. -/
def symbol : Comparator → String
  | greater => ">"
  | less => "<"
  | equal => "="

/-- The comparator with a symbol. -/
def ofSymbol? : String → Option Comparator
  | ">" => some greater
  | "<" => some less
  | "=" => some equal
  | _ => none

/-- Whether a comparator holds of two values in the given order.  Without an order none
does. -/
def accepts : Comparator → Option Ordering → Bool
  | greater, order => order == some .gt
  | less, order => order == some .lt
  | equal, order => order == some .eq

end Comparator

/-- The operators that join two trees. -/
inductive LogicalOp where
  | and
  | or
  deriving DecidableEq, Repr

namespace LogicalOp

/-- The keyword of an operator. -/
def keyword : LogicalOp → String
  | .and => "AND"
  | .or => "OR"

/-- The operator with a keyword. -/
def ofKeyword? : String → Option LogicalOp
  | "AND" => some .and
  | "OR" => some .or
  | _ => none

/-- The result of a left side that settles the result of the whole. -/
def deciding : LogicalOp → Bool
  | .and => false
  | .or => true

end LogicalOp

/-- A comparison of a field with a value. -/
structure Condition where
  /-- The field. -/
  field : String
  /-- The comparison. -/
  comparator : Comparator
  /-- The value on the right of the comparison. -/
  literal : Value
  deriving DecidableEq

namespace Condition

/-- A condition as it is written in rule texts. -/
def display (c : Condition) : String :=
  c.field ++ " " ++ c.comparator.symbol ++ " " ++ c.literal.display

/-- Whether two conditions are equal, literals by `Value.equals`. -/
def equals (c d : Condition) : Bool :=
  c.field == d.field && c.comparator == d.comparator && c.literal.equals d.literal

end Condition

/-- A rule. -/
inductive Tree where
  /-- A single comparison. -/
  | leaf (condition : Condition)
  /-- Two rules joined by an operator. -/
  | operator (op : LogicalOp) (left right : Tree)
  deriving DecidableEq

/-- The height up to which the engine joins trees and rule texts nest parentheses. -/
def maxDepth : Nat := 100

namespace Tree

/-- The height of a tree; a leaf has height one. -/
def depth : Tree → Nat
  | leaf _ => 1
  | operator _ left right => max left.depth right.depth + 1

/-- The fields of the leaves from left to right, each as often as it occurs. -/
def fields : Tree → List String
  | leaf c => [c.field]
  | operator _ left right => left.fields ++ right.fields

/-- A tree as a rule text, every join in parentheses. -/
def display : Tree → String
  | leaf c => c.display
  | operator op left right =>
      "(" ++ left.display ++ " " ++ op.keyword ++ " " ++ right.display ++ ")"

/-- Whether two trees are equal, literals by `Value.equals`. -/
def equals : Tree → Tree → Bool
  | leaf c, leaf d => c.equals d
  | operator op left right, operator op' left' right' =>
      op == op' && left.equals left' && right.equals right'
  | _, _ => false

end Tree

/-- A tree with its height. -/
structure MeasuredTree where
  /-- The tree. -/
  tree : Tree
  /-- Its height. -/
  height : Nat
  /-- The height is that of the tree. -/
  height_eq : height = tree.depth
  deriving DecidableEq

/-- A tree, measured. -/
def Tree.measured (tree : Tree) : MeasuredTree := ⟨tree, tree.depth, rfl⟩

namespace MeasuredTree

/-- A single comparison. -/
def leaf (condition : Condition) : MeasuredTree := ⟨.leaf condition, 1, rfl⟩

/-- Two trees joined, with a height that follows from theirs. -/
def operator (op : LogicalOp) (left right : MeasuredTree) : MeasuredTree where
  tree := .operator op left.tree right.tree
  height := max left.height right.height + 1
  height_eq := by rw [left.height_eq, right.height_eq, Tree.depth]

/-- Two trees joined, if the result is not too high. -/
def join? (op : LogicalOp) (left right : MeasuredTree) : Option MeasuredTree :=
  let joined := operator op left right
  if joined.height ≤ maxDepth then some joined else none

end MeasuredTree

/-- The fields of an optional tree. -/
def fieldsOf (root : Option Tree) : List String := (root.map Tree.fields).getD []

end Rulebook
