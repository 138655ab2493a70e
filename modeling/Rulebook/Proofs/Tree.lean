import Rulebook.Tree

/-!
# Trees, their words and their joins

The keywords and symbols that trees are written with determine the operators and
comparators they stand for (`LogicalOp.ofKeyword?_eq_some_iff`,
`Comparator.ofSymbol?_eq_some_iff`).  A measured tree is nothing but its tree
(`MeasuredTree.measured_tree`).  Two of them are joined exactly when neither is as high as the
limit (`MeasuredTree.join?_eq_some_iff`).
-/

namespace Rulebook

/-! ## Words -/

@[simp] theorem LogicalOp.ofKeyword?_keyword (op : LogicalOp) :
    LogicalOp.ofKeyword? op.keyword = some op := by
  cases op <;> rfl

theorem LogicalOp.ofKeyword?_eq_some_iff {word : String} {op : LogicalOp} :
    LogicalOp.ofKeyword? word = some op ↔ word = op.keyword := by
  constructor
  · intro h
    unfold LogicalOp.ofKeyword? at h
    split at h
    · cases h
      rfl
    · cases h
      rfl
    · cases h
  · rintro rfl
    exact op.ofKeyword?_keyword

@[simp] theorem Comparator.ofSymbol?_symbol (c : Comparator) :
    Comparator.ofSymbol? c.symbol = some c := by
  cases c <;> rfl

theorem Comparator.ofSymbol?_eq_some_iff {symbol : String} {c : Comparator} :
    Comparator.ofSymbol? symbol = some c ↔ symbol = c.symbol := by
  constructor
  · intro h
    unfold Comparator.ofSymbol? at h
    split at h
    · cases h
      rfl
    · cases h
      rfl
    · cases h
      rfl
    · cases h
  · rintro rfl
    exact c.ofSymbol?_symbol

namespace Tree

/-! ## Literals -/

/-- The values that the leaves compare with, from left to right. -/
def literals : Tree → List Value
  | leaf c => [c.literal]
  | operator _ left right => left.literals ++ right.literals

/-! ## Height -/

theorem depth_left_lt (op : LogicalOp) (l r : Tree) : l.depth < (operator op l r).depth :=
  Nat.lt_succ_of_le (Nat.le_max_left _ _)

theorem depth_right_lt (op : LogicalOp) (l r : Tree) : r.depth < (operator op l r).depth :=
  Nat.lt_succ_of_le (Nat.le_max_right _ _)

end Tree

/-! ## Joins -/

@[simp] theorem Tree.tree_measured (tree : Tree) : tree.measured.tree = tree := rfl

@[simp] theorem Tree.height_measured (tree : Tree) : tree.measured.height = tree.depth := rfl

@[simp] theorem Tree.measured_leaf (c : Condition) : (Tree.leaf c).measured = .leaf c := rfl

namespace MeasuredTree

@[simp] theorem height_operator (op : LogicalOp) (l r : MeasuredTree) :
    (operator op l r).height = max l.height r.height + 1 := rfl

/-- A tree has one height only. -/
@[simp] theorem measured_tree (t : MeasuredTree) : t.tree.measured = t := by
  obtain ⟨tree, height, rfl⟩ := t
  rfl

/-- Measured trees are joined as their trees are. -/
@[simp] theorem operator_measured (op : LogicalOp) (l r : Tree) :
    operator op l.measured r.measured = (Tree.operator op l r).measured := rfl

theorem join?_eq_some_iff {op : LogicalOp} {l r t : MeasuredTree} :
    join? op l r = some t ↔ t = operator op l r ∧ t.height ≤ maxDepth := by
  unfold join?
  by_cases h : (operator op l r).height ≤ maxDepth
  · rw [if_pos h, Option.some.injEq]
    constructor
    · rintro rfl
      exact ⟨rfl, h⟩
    · rintro ⟨rfl, -⟩
      rfl
  · rw [if_neg h]
    constructor
    · intro hj
      cases hj
    · rintro ⟨rfl, hd⟩
      exact absurd hd h

theorem join?_of_height_le {op : LogicalOp} {l r : MeasuredTree}
    (h : (operator op l r).height ≤ maxDepth) : join? op l r = some (operator op l r) :=
  join?_eq_some_iff.2 ⟨rfl, h⟩

theorem join?_eq_none_iff {op : LogicalOp} {l r : MeasuredTree} :
    join? op l r = none ↔ maxDepth < (operator op l r).height := by
  simp only [join?, ite_eq_right_iff, reduceCtorEq, imp_false, Nat.not_le]

end MeasuredTree

end Rulebook
