import Rulebook.Error
import Rulebook.Record

/-!
# Evaluation

A rule holds of a record, does not hold, or cannot be decided.  `Tree.evaluate` goes from
left to right and leaves out the right side of a join that the left side settles, so an
error on a side that is left out does not show.
-/

namespace Rulebook

/-- The result of a condition on a value. -/
def Condition.test (c : Condition) (value : Value) : Except Error Bool :=
  match value.order? c.literal with
  | none => .error (.typeMismatch value.kind c.literal.kind)
  | some order => .ok (c.comparator.accepts order)

/-- The result of a condition on a record. -/
def Condition.evaluate (c : Condition) (record : Record) : Except Error Bool :=
  match record.get? c.field with
  | none => .error (.missingField c.field)
  | some value => c.test value

/-- The result of a rule on a record. -/
def Tree.evaluate (record : Record) : Tree → Except Error Bool
  | leaf c => c.evaluate record
  | operator op left right =>
      match left.evaluate record with
      | .error e => .error e
      | .ok result =>
          if result = op.deciding then .ok result else right.evaluate record

/-- The result of an optional rule; every record satisfies the absent one. -/
def evaluate (root : Option Tree) (record : Record) : Except Error Bool :=
  match root with
  | none => .ok true
  | some tree => tree.evaluate record

end Rulebook
