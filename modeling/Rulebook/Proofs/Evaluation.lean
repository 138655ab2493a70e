import Rulebook.Evaluation

/-!
# How evaluations fail

An evaluation fails only where a record misses a field or has a value that cannot be compared
(`Tree.isOfEvaluation`).  So it fails neither as reading a rule does nor as looking for one.
-/

namespace Rulebook

/-- The errors of evaluations. -/
inductive Error.IsOfEvaluation : Error → Prop where
  | missingField (field : String) : IsOfEvaluation (.missingField field)
  | typeMismatch (value literal : Kind) : IsOfEvaluation (.typeMismatch value literal)

variable {record : Record} {e : Error}

theorem Condition.isOfEvaluation {c : Condition} (h : c.evaluate record = .error e) :
    e.IsOfEvaluation := by
  rw [evaluate] at h
  split at h
  next =>
    cases h
    exact .missingField c.field
  next value _ =>
    rw [test] at h
    split at h
    next =>
      cases h
      exact .typeMismatch value.kind c.literal.kind
    next => cases h

theorem Tree.isOfEvaluation {tree : Tree} (h : tree.evaluate record = .error e) :
    e.IsOfEvaluation := by
  induction tree with
  | leaf c => exact Condition.isOfEvaluation h
  | operator op left right ihleft ihright =>
      rw [evaluate] at h
      split at h
      next hleft =>
        cases h
        exact ihleft hleft
      next =>
        split at h
        next => cases h
        next => exact ihright h

theorem isOfEvaluation {root : Option Tree} (h : evaluate root record = .error e) :
    e.IsOfEvaluation := by
  cases root with
  | none => cases h
  | some tree => exact Tree.isOfEvaluation h

end Rulebook
