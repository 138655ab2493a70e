import Rulebook.Proofs.Portable.Tree

/-!
# Faults of portable forms

A portable form is no rule if one of its nodes is at fault by itself (`PortableTree.fault?`).
Its fault is that of the first such node, where a node comes before the nodes below it and
the left side before the right one (`PortableTree.toTree_eq_error_iff`).  Where no node is at
fault, the form is that of a rule whose fields have names (`PortableTree.checked_toTree`).
-/

namespace Rulebook

namespace PortableTree

/-! ## Nodes -/

/-- What is wrong with a leaf. -/
def leafFault? (left right : PortableTree) (field comparator : String) : Option Error :=
  if left ≠ absent ∨ right ≠ absent then some (.faultyData (.operandWithChildren field))
  else if field = "" then some (.faultyData .emptyField)
  else if Comparator.ofSymbol? comparator = none then some (.unsupportedComparator comparator)
  else none

/-- What is wrong with a join, whatever stands below its sides. -/
def joinFault? (left right : PortableTree) (kind : String) : Option Error :=
  match LogicalOp.ofKeyword? kind with
  | none => some (.faultyData (.unknownOperator kind))
  | some op =>
      if left = absent ∨ right = absent then some (.faultyData (.missingChild op)) else none

/-- What is wrong with the topmost node, whatever stands below its children. -/
def fault? : PortableTree → Option Error
  | absent => none
  | node nodeType left right payload =>
      if nodeType = operandType then
        match payload with
        | .condition field comparator _ => leafFault? left right field comparator
        | .operator _ => some (.faultyData (.mismatchedPayload nodeType))
      else if nodeType = operatorType then
        match payload with
        | .condition _ _ _ => some (.faultyData (.mismatchedPayload nodeType))
        | .operator kind => joinFault? left right kind
      else some (.faultyData (.unknownNodeType nodeType))

/-- The nodes of a form, each with what stands below it: a node before the nodes below it,
and the left side before the right one. -/
def nodes : PortableTree → List PortableTree
  | absent => []
  | node nodeType left right payload =>
      node nodeType left right payload :: (left.nodes ++ right.nodes)

/-- The fault of the first node that is at fault. -/
def firstFault? (p : PortableTree) : Option Error := p.nodes.findSome? fault?

@[simp] theorem isAbsent_eq_decide (p : PortableTree) : p.isAbsent = decide (p = absent) := by
  cases p <;> simp [isAbsent]

/-- A leaf is at fault, or it is that of a condition on a named field. -/
theorem toLeaf_cases (left right : PortableTree) (field comparator : String)
    (literal : Value) :
    (∃ e, leafFault? left right field comparator = some e ∧
      toLeaf left right field comparator literal = .error e) ∨
    ∃ c, leafFault? left right field comparator = none ∧
      toLeaf left right field comparator literal = .ok (.leaf ⟨field, c, literal⟩) ∧
      left = absent ∧ right = absent ∧ field ≠ "" ∧ comparator = c.symbol := by
  have hiff : (!left.isAbsent || !right.isAbsent) = true ↔ left ≠ absent ∨ right ≠ absent := by
    simp
  simp only [leafFault?, toLeaf, hiff, String.isEmpty_iff]
  by_cases hchildren : left ≠ absent ∨ right ≠ absent
  · simp only [if_pos hchildren]
    exact .inl ⟨_, rfl, rfl⟩
  · obtain ⟨hleft, hright⟩ : left = absent ∧ right = absent := by simpa using hchildren
    simp only [if_neg hchildren]
    by_cases hfield : field = ""
    · simp only [if_pos hfield]
      exact .inl ⟨_, rfl, rfl⟩
    · simp only [if_neg hfield]
      cases hcomparator : Comparator.ofSymbol? comparator with
      | none => exact .inl ⟨_, if_pos rfl, rfl⟩
      | some c =>
          have hsymbol := Comparator.ofSymbol?_eq_some_iff.1 hcomparator
          exact .inr ⟨c, if_neg (Option.some_ne_none c), rfl, hleft, hright, hfield, hsymbol⟩

/-- A join by an operator with both sides is not at fault. -/
theorem joinFault?_keyword (op : LogicalOp) {left right : PortableTree} (hleft : left ≠ absent)
    (hright : right ≠ absent) : joinFault? left right op.keyword = none := by
  rw [joinFault?, LogicalOp.ofKeyword?_keyword]
  exact if_neg (not_or.2 ⟨hleft, hright⟩)

theorem toTree_join (op : LogicalOp) {left right : PortableTree} (hleft : left ≠ absent)
    (hright : right ≠ absent) :
    (node operatorType left right (.operator op.keyword)).toTree =
      left.toTree.bind fun l => right.toTree.bind fun r =>
        match l, r with
        | some l, some r => .ok (some (.operator op l r))
        | _, _ => .error (.faultyData (.missingChild op)) := by
  rw [toTree, if_neg (by decide), if_pos rfl, LogicalOp.ofKeyword?_keyword]
  simp only [isAbsent_eq_decide, hleft, hright, decide_false, Bool.or_self, Bool.false_eq_true,
    if_false]
  rfl

/-- A join is at fault, or it has an operator and both sides. -/
theorem join_cases (left right : PortableTree) (kind : String) :
    (∃ e, joinFault? left right kind = some e ∧
      (node operatorType left right (.operator kind)).toTree = .error e) ∨
    ∃ op : LogicalOp, kind = op.keyword ∧ left ≠ absent ∧ right ≠ absent := by
  cases hkind : LogicalOp.ofKeyword? kind with
  | none =>
      left
      refine ⟨.faultyData (.unknownOperator kind), ?_, ?_⟩
      · rw [joinFault?, hkind]
      · rw [toTree, if_neg (by decide), if_pos rfl, hkind]
  | some op =>
      by_cases hmissing : left = absent ∨ right = absent
      · left
        refine ⟨.faultyData (.missingChild op), ?_, ?_⟩
        · rw [joinFault?, hkind]
          exact if_pos hmissing
        · rw [toTree, if_neg (by decide), if_pos rfl, hkind]
          exact if_pos (by simpa using hmissing)
      · right
        obtain ⟨hleft, hright⟩ := not_or.1 hmissing
        exact ⟨op, LogicalOp.ofKeyword?_eq_some_iff.1 hkind, hleft, hright⟩

/-- A node that is neither a leaf nor a join is at fault. -/
theorem unknown_node {nodeType : String} (hleaf : nodeType ≠ operandType)
    (hjoin : nodeType ≠ operatorType) (left right : PortableTree) (payload : Payload) :
    (node nodeType left right payload).fault? =
        some (.faultyData (.unknownNodeType nodeType)) ∧
      (node nodeType left right payload).toTree =
        .error (.faultyData (.unknownNodeType nodeType)) := by
  cases payload <;> simp only [fault?, toTree, if_neg hleaf, if_neg hjoin, and_self]

/-- A node is at fault for its comparator alone exactly if it is a leaf on a named field whose
comparator is none of the three. -/
theorem fault?_eq_unsupportedComparator_iff {p : PortableTree} {symbol : String} :
    p.fault? = some (.unsupportedComparator symbol) ↔
      ∃ field literal, p = node operandType absent absent (.condition field symbol literal) ∧
        field ≠ "" ∧ Comparator.ofSymbol? symbol = none := by
  constructor
  · intro h
    unfold fault? leafFault? joinFault? at h
    grind
  · rintro ⟨field, literal, rfl, hfield, hsymbol⟩
    rw [fault?, if_pos rfl, leafFault?, if_neg (by simp), if_neg hfield, if_pos hsymbol]

/-- All other faults are those of data. -/
theorem isClientError_of_fault? {p : PortableTree} {e : Error} (h : p.fault? = some e) :
    e.isClientError = false ∨ ∃ symbol, e = .unsupportedComparator symbol := by
  unfold fault? leafFault? joinFault? at h
  grind [Error.isClientError]

/-! ## Forms -/

theorem firstFault?_node_of_some {nodeType : String} {left right : PortableTree}
    {payload : Payload} {e : Error} (h : (node nodeType left right payload).fault? = some e) :
    (node nodeType left right payload).firstFault? = some e := by
  rw [firstFault?, nodes, List.findSome?_cons, h]

theorem firstFault?_node_of_none {nodeType : String} {left right : PortableTree}
    {payload : Payload} (h : (node nodeType left right payload).fault? = none) :
    (node nodeType left right payload).firstFault? =
      left.firstFault?.or right.firstFault? := by
  rw [firstFault?, nodes, List.findSome?_cons, h, List.findSome?_append]
  rfl

theorem exists_firstFault? {p q : PortableTree} (hq : q ∈ p.nodes) (h : q.fault? ≠ none) :
    ∃ e, p.firstFault? = some e := by
  rw [← Option.isSome_iff_exists, firstFault?, List.findSome?_isSome_iff]
  exact ⟨q, hq, Option.isSome_iff_ne_none.2 h⟩

/-- What the check of a form ends in: the fault of the first node that is at fault, or the
rule that the form was made from, whose fields have names. -/
inductive Checked (p : PortableTree) : Except Error (Option Tree) → Prop where
  | fault {e : Error} (h : p.firstFault? = some e) : Checked p (.error e)
  | rule {root : Option Tree} (hp : p = ofTree root) (hfirst : p.firstFault? = none)
      (hfields : ∀ field ∈ fieldsOf root, field ≠ "") : Checked p (.ok root)

/-- The rule of a leaf. -/
theorem Checked.leaf (left right : PortableTree) (field comparator : String)
    (literal : Value) :
    Checked (node operandType left right (.condition field comparator literal))
      (node operandType left right (.condition field comparator literal)).toTree := by
  have hfault : (node operandType left right (.condition field comparator literal)).fault? =
      leafFault? left right field comparator := by
    rw [fault?, if_pos rfl]
  rw [toTree, if_pos rfl]
  rcases toLeaf_cases left right field comparator literal with
    ⟨e, he, htree⟩ | ⟨c, hnone, htree, rfl, rfl, hfield, rfl⟩
  · rw [htree]
    exact .fault (firstFault?_node_of_some (hfault.trans he))
  · rw [htree]
    refine .rule rfl (firstFault?_node_of_none (hfault.trans hnone)) ?_
    intro other hother
    rwa [List.mem_singleton.1 hother]

/-- The rule of a join whose sides have been checked. -/
theorem Checked.join (op : LogicalOp) {left right : PortableTree} (hleft : left ≠ absent)
    (hright : right ≠ absent) (hl : Checked left left.toTree)
    (hr : Checked right right.toTree) :
    Checked (node operatorType left right (.operator op.keyword))
      (node operatorType left right (.operator op.keyword)).toTree := by
  have hfirst : (node operatorType left right (.operator op.keyword)).firstFault? =
      left.firstFault?.or right.firstFault? := by
    refine firstFault?_node_of_none ?_
    exact joinFault?_keyword op hleft hright
  rw [toTree_join op hleft hright]
  generalize left.toTree = l at hl
  generalize right.toTree = r at hr
  -- The right side is looked at only where the left one is a rule, and neither side is
  -- absent, so there are rules to join.
  cases hl with
  | fault h => exact .fault (by rw [hfirst, h, Option.some_or])
  | @rule root hp hnone hfields =>
      cases root with
      | none => exact absurd hp hleft
      | some tree =>
          cases hr with
          | fault h => exact .fault (by rw [hfirst, hnone, h, Option.none_or])
          | @rule root' hp' hnone' hfields' =>
              cases root' with
              | none => exact absurd hp' hright
              | some tree' =>
                  refine .rule ?_ ?_ (List.forall_mem_append.2 ⟨hfields, hfields'⟩)
                  · rw [hp, hp']
                    rfl
                  · rw [hfirst, hnone, hnone', Option.none_or]

/-- The check of a form ends in the fault of its first node at fault, or in the rule that it
was made from. -/
theorem checked_toTree (p : PortableTree) : Checked p p.toTree := by
  induction p with
  | absent =>
      show Checked absent (.ok none)
      exact .rule rfl rfl nofun
  | node nodeType left right payload ihleft ihright =>
      by_cases hleaf : nodeType = operandType
      · subst hleaf
        cases payload with
        | condition field comparator literal => exact .leaf left right field comparator literal
        | operator kind => exact .fault (firstFault?_node_of_some rfl)
      · by_cases hjoin : nodeType = operatorType
        · subst hjoin
          cases payload with
          | condition field comparator literal => exact .fault (firstFault?_node_of_some rfl)
          | operator kind =>
              rcases join_cases left right kind with ⟨e, he, htree⟩ | ⟨op, rfl, hleft, hright⟩
              · rw [htree]
                exact .fault (firstFault?_node_of_some he)
              · exact .join op hleft hright ihleft ihright
        · obtain ⟨hfault, htree⟩ := unknown_node hleaf hjoin left right payload
          rw [htree]
          exact .fault (firstFault?_node_of_some hfault)

/-- The check fails exactly with the fault of the first node that is at fault. -/
theorem toTree_eq_error_iff {p : PortableTree} {e : Error} :
    p.toTree = .error e ↔ p.firstFault? = some e := by
  have h := p.checked_toTree
  generalize p.toTree = result at h
  cases h with
  | fault h => rw [h, Except.error.injEq, Option.some.injEq]
  | rule _ hfirst _ => simp [hfirst]

/-- The rule of a form is the one that the form was made from, and its fields have names. -/
theorem eq_ofTree_of_toTree {p : PortableTree} {root : Option Tree} (h : p.toTree = .ok root) :
    p = ofTree root ∧ ∀ field ∈ fieldsOf root, field ≠ "" := by
  have hchecked := p.checked_toTree
  rw [h] at hchecked
  cases hchecked with
  | rule hp _ hfields => exact ⟨hp, hfields⟩

end PortableTree

end Rulebook
