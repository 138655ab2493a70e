import Rulebook.Proofs.Portable.Fault

/-!
# The check of portable forms as an inverse

A node of a portable form is ill-formed in one of eight ways, none of which looks below its
children (`PortableTree.HasFault`).  The check of a form gives the one rule whose form it is, if
the fields of that rule have names, and otherwise what is wrong with the first ill-formed node
(`PortableTree.toTree_inverts_portable`).
-/

namespace Rulebook

namespace PortableTree

/-- What is wrong with a node by itself.  Its type and payload come first, then whether a leaf
has children, names a field and has a comparator, and whether a join has an operator and both
sides. -/
inductive HasFault : PortableTree → Error → Prop where
  | nodeType {nodeType : String} {left right : PortableTree} {payload : Payload} :
      nodeType ≠ operandType → nodeType ≠ operatorType →
      HasFault (node nodeType left right payload) (.faultyData (.unknownNodeType nodeType))
  | leafPayload {left right : PortableTree} {kind : String} :
      HasFault (node operandType left right (.operator kind))
        (.faultyData (.mismatchedPayload operandType))
  | joinPayload {left right : PortableTree} {field symbol : String} {literal : Value} :
      HasFault (node operatorType left right (.condition field symbol literal))
        (.faultyData (.mismatchedPayload operatorType))
  | children {left right : PortableTree} {field symbol : String} {literal : Value} :
      left ≠ absent ∨ right ≠ absent →
      HasFault (node operandType left right (.condition field symbol literal))
        (.faultyData (.operandWithChildren field))
  | field {symbol : String} {literal : Value} :
      HasFault (node operandType absent absent (.condition "" symbol literal))
        (.faultyData .emptyField)
  | comparator {field symbol : String} {literal : Value} :
      field ≠ "" → (∀ c : Comparator, symbol ≠ c.symbol) →
      HasFault (node operandType absent absent (.condition field symbol literal))
        (.unsupportedComparator symbol)
  | operator {left right : PortableTree} {kind : String} :
      (∀ op : LogicalOp, kind ≠ op.keyword) →
      HasFault (node operatorType left right (.operator kind))
        (.faultyData (.unknownOperator kind))
  | sides {left right : PortableTree} {op : LogicalOp} :
      left = absent ∨ right = absent →
      HasFault (node operatorType left right (.operator op.keyword))
        (.faultyData (.missingChild op))

theorem leafFault?_eq_some {left right : PortableTree} {field symbol : String} {e : Error}
    (literal : Value) (h : leafFault? left right field symbol = some e) :
    HasFault (node operandType left right (.condition field symbol literal)) e := by
  rw [leafFault?] at h
  split at h
  next hchildren =>
    cases h
    exact .children hchildren
  next hchildren =>
    obtain ⟨rfl, rfl⟩ : left = absent ∧ right = absent := by simpa using hchildren
    split at h
    next hfield =>
      cases h
      subst hfield
      exact .field
    next hfield =>
      split at h
      next hsymbol =>
        cases h
        refine .comparator hfield fun c hc => ?_
        rw [Comparator.ofSymbol?_eq_some_iff.2 hc] at hsymbol
        cases hsymbol
      next => cases h

theorem joinFault?_eq_some {left right : PortableTree} {kind : String} {e : Error}
    (h : joinFault? left right kind = some e) :
    HasFault (node operatorType left right (.operator kind)) e := by
  rw [joinFault?] at h
  split at h
  next hkind =>
    cases h
    refine .operator fun op hop => ?_
    rw [LogicalOp.ofKeyword?_eq_some_iff.2 hop] at hkind
    cases hkind
  next op hkind =>
    obtain rfl := LogicalOp.ofKeyword?_eq_some_iff.1 hkind
    split at h
    next hmissing =>
      cases h
      exact .sides hmissing
    next => cases h

/-- The fault that is found at a node is what is wrong with it. -/
theorem fault?_eq_some_iff {p : PortableTree} {e : Error} : p.fault? = some e ↔ p.HasFault e := by
  constructor
  · intro h
    cases p with
    | absent => cases h
    | node nodeType left right payload =>
        by_cases hleaf : nodeType = operandType
        · subst hleaf
          cases payload with
          | condition field symbol literal => exact leafFault?_eq_some literal h
          | operator kind =>
              cases h
              exact .leafPayload
        · by_cases hjoin : nodeType = operatorType
          · subst hjoin
            cases payload with
            | condition field symbol literal =>
                cases h
                exact .joinPayload
            | operator kind => exact joinFault?_eq_some h
          · rw [(unknown_node hleaf hjoin left right payload).1] at h
            cases h
            exact .nodeType hleaf hjoin
  · intro h
    cases h with
    | nodeType hleaf hjoin => exact (unknown_node hleaf hjoin _ _ _).1
    | leafPayload => rfl
    | joinPayload => rfl
    | children hchildren => exact if_pos hchildren
    | field => rfl
    | comparator hfield hsymbol =>
        refine fault?_eq_unsupportedComparator_iff.2 ⟨_, _, rfl, hfield, ?_⟩
        exact Option.eq_none_iff_forall_ne_some.2 fun c hc =>
          hsymbol c (Comparator.ofSymbol?_eq_some_iff.1 hc)
    | @operator left right kind hkind =>
        have hnone : LogicalOp.ofKeyword? kind = none :=
          Option.eq_none_iff_forall_ne_some.2 fun op hop =>
            hkind op (LogicalOp.ofKeyword?_eq_some_iff.1 hop)
        show joinFault? left right kind = _
        rw [joinFault?, hnone]
    | @sides left right op hmissing =>
        show joinFault? left right op.keyword = _
        rw [joinFault?, LogicalOp.ofKeyword?_keyword]
        exact if_pos hmissing

theorem toTree_ofTree {root : Option Tree} (h : ∀ field ∈ fieldsOf root, field ≠ "") :
    (ofTree root).toTree = .ok root := by
  cases root with
  | none => rfl
  | some tree => exact Tree.toTree_portable h

/-- The check of a form ends in a rule exactly if the form is that of the rule and the fields of
the rule have names.  It ends in an error exactly if this is what is wrong with the first
ill-formed node, where a node comes before those below it and the left side before the right. -/
theorem toTree_inverts_portable (p : PortableTree) :
    (∀ root, p.toTree = .ok root ↔
      ofTree root = p ∧ ∀ field ∈ fieldsOf root, field ≠ "") ∧
    ∀ e, p.toTree = .error e ↔
      ∃ before q after, p.nodes = before ++ q :: after ∧ q.HasFault e ∧
        ∀ other ∈ before, ∀ e', ¬ other.HasFault e' := by
  constructor
  · intro root
    constructor
    · intro h
      obtain ⟨rfl, hfields⟩ := eq_ofTree_of_toTree h
      exact ⟨rfl, hfields⟩
    · rintro ⟨rfl, hfields⟩
      exact toTree_ofTree hfields
  · intro e
    have hnone (q : PortableTree) : q.fault? = none ↔ ∀ e', ¬ q.HasFault e' := by
      simp only [Option.eq_none_iff_forall_ne_some, ne_eq, fault?_eq_some_iff]
    rw [toTree_eq_error_iff, firstFault?, List.findSome?_eq_some_iff]
    simp only [fault?_eq_some_iff, hnone]

end PortableTree

end Rulebook
