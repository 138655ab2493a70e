import Rulebook.Rule.Parse

/-!
# Combining rules

Several rules become one in two ways.  `Tree.combine` joins them by the operator whose keyword
stands more often in their texts; it takes rules from the front of a queue in pairs and
puts each join at its end, so the result is shallow and the rules may be rotated.
`Tree.conjoin` joins them by AND from left to right.  Each rule is measured when it has been
read, and joins take their heights from those of their sides.
-/

namespace Rulebook

/-- How often a pattern begins within a text. -/
def occurrences (pattern : List Char) : List Char → Nat
  | [] => 0
  | c :: rest =>
      (if pattern.isPrefixOf (c :: rest) then 1 else 0) + occurrences pattern rest

/-- How often an operator's keyword stands in texts, as a part of longer words too. -/
def LogicalOp.count (op : LogicalOp) : List String → Nat
  | [] => 0
  | text :: rest => occurrences op.keyword.toList text.toList + op.count rest

/-- The operator whose keyword stands more often in texts; AND if they are even. -/
def LogicalOp.majority (texts : List String) : LogicalOp :=
  if LogicalOp.or.count texts ≤ LogicalOp.and.count texts then .and else .or

/-- Two rules joined; an error if the result is too high. -/
def MeasuredTree.join (op : LogicalOp) (left right : MeasuredTree) : Except Error MeasuredTree :=
  match join? op left right with
  | some joined => .ok joined
  | none => .error (.tooDeep (operator op left right).height)

/-- Joins the first two rules of a queue and puts the result at its end, until one rule is
left. -/
def MeasuredTree.reduce (op : LogicalOp) : List MeasuredTree → Except Error Tree
  | [] => .error .noRules
  | [last] => .ok last.tree
  | left :: right :: rest =>
      match join op left right with
      | .error e => .error e
      | .ok joined => reduce op (rest ++ [joined])
termination_by queue => queue.length

/-- The rules of texts, or the error of the first text that is none. -/
def Tree.parseAll : List String → Except Error (List Tree)
  | [] => .ok []
  | text :: rest =>
      match Tree.parse text with
      | .error e => .error e
      | .ok tree => (Tree.parseAll rest).map (tree :: ·)

/-- Combines rules by the operator of the majority. -/
def Tree.combine (texts : List String) : Except Error Tree :=
  match Tree.parseAll texts with
  | .error e => .error e
  | .ok trees => MeasuredTree.reduce (LogicalOp.majority texts) (trees.map Tree.measured)

/-- Joins rules by AND to a rule on their left, each as soon as it is read. -/
def MeasuredTree.conjoinOnto (left : MeasuredTree) : List String → Except Error Tree
  | [] => .ok left.tree
  | text :: rest =>
      match Tree.parse text with
      | .error e => .error e
      | .ok right =>
          match join .and left right.measured with
          | .error e => .error e
          | .ok joined => joined.conjoinOnto rest

/-- Combines rules by AND from left to right. -/
def Tree.conjoin : List String → Except Error Tree
  | [] => .error .noRules
  | text :: rest =>
      match Tree.parse text with
      | .error e => .error e
      | .ok tree => tree.measured.conjoinOnto rest

end Rulebook
