import Rulebook.Proofs.Portable.Document
import Rulebook.Proofs.Tree

/-!
# Rules are read back from JSON

A rule whose fields have names is read back from its JSON text with the values that its
literals are read back as (`Tree.ofJson_json`).  It is the same rule exactly if all its
floating-point numbers are read from the numerals that are written for them
(`Tree.reread_eq_self_iff`).
-/

namespace Rulebook

/-! ## Values -/

/-- A number is read from the numeral that JSON texts have for it. -/
def Binary64.ReadsBack (x : Binary64) : Prop :=
  x.isFinite = true ∧ (x.numeral .json).number? = some (.float x)

instance (x : Binary64) : Decidable x.ReadsBack :=
  inferInstanceAs (Decidable (_ ∧ _))

theorem Value.reread_float_eq_self_iff (x : Binary64) :
    (float x).reread = some (float x) ↔ x.ReadsBack := by
  rw [reread_float, Binary64.ReadsBack]
  split
  next hfinite =>
    cases hnumber : (x.numeral .json).number? with
    | none => simp
    | some number =>
        obtain ⟨y, rfl⟩ := (x.isFloat_numeral .json).eq_float hnumber
        simp [hfinite]
  next hfinite => simp [hfinite]

/-! ## Rules -/

namespace Tree

/-- The rule that is read back where a rule is written. -/
def reread : Tree → Option Tree
  | leaf c => c.literal.reread.map fun literal => leaf { c with literal }
  | operator op left right =>
      match left.reread, right.reread with
      | some left, some right => some (operator op left right)
      | _, _ => none

/-- What is found where a rule is stored: the rule that is read back, or an error if one of
its values is not. -/
def found (tree : Tree) : Except Error (Option Tree) :=
  match tree.reread with
  | some tree' => .ok (some tree')
  | none => .error (.faultyData .unreadable)

theorem reread_operator_eq_some_iff {op : LogicalOp} {left right tree : Tree} :
    (operator op left right).reread = some tree ↔
      ∃ left' right', left.reread = some left' ∧ right.reread = some right' ∧
        tree = operator op left' right' := by
  rw [reread]
  cases left.reread <;> cases right.reread <;> simp [eq_comm]

/-- A rule is read back as it is exactly if its floating-point numbers are. -/
theorem reread_eq_self_iff (tree : Tree) :
    tree.reread = some tree ↔ ∀ x, .float x ∈ tree.literals → x.ReadsBack := by
  induction tree with
  | leaf c =>
      obtain ⟨field, comparator, literal⟩ := c
      cases literal with
      | int i => simp [reread, literals, Value.reread_int]
      | text s => simp [reread, literals, Value.reread_text]
      | float y =>
          rw [reread, literals]
          simp only [List.mem_singleton, Value.float.injEq, forall_eq]
          rw [← Value.reread_float_eq_self_iff]
          simp
  | operator op left right ihleft ihright =>
      simp only [reread_operator_eq_some_iff, literals, List.mem_append, operator.injEq,
        true_and, or_imp, forall_and, ← ihleft, ← ihright]
      constructor
      · rintro ⟨_, _, hleft, hright, rfl, rfl⟩
        exact ⟨hleft, hright⟩
      · rintro ⟨hleft, hright⟩
        exact ⟨left, right, hleft, hright, rfl, rfl⟩

theorem found_eq_ok_some_iff {tree tree' : Tree} :
    tree.found = .ok (some tree') ↔ tree.reread = some tree' := by
  rw [found]
  cases tree.reread <;> simp

theorem fields_of_reread {tree tree' : Tree} (h : tree.reread = some tree') :
    tree'.fields = tree.fields := by
  induction tree generalizing tree' with
  | leaf c =>
      obtain ⟨literal, -, rfl⟩ := Option.map_eq_some_iff.1 h
      rfl
  | operator op left right ihleft ihright =>
      obtain ⟨left', right', hleft, hright, rfl⟩ := reread_operator_eq_some_iff.1 h
      rw [fields, fields, ihleft hleft, ihright hright]

/-! ## Portable forms -/

theorem levels_portable (tree : Tree) : tree.portable.levels = tree.depth + 1 := by
  induction tree with
  | leaf c => rfl
  | operator op left right ihleft ihright =>
      rw [portable, PortableTree.levels, depth, ihleft, ihright]
      omega

theorem reread_portable (tree : Tree) :
    tree.portable.reread = tree.reread.map portable := by
  induction tree with
  | leaf c =>
      simp only [portable, PortableTree.reread, Payload.reread, reread]
      cases c.literal.reread <;> rfl
  | operator op left right ihleft ihright =>
      rw [portable, PortableTree.reread, ihleft, ihright, reread]
      cases left.reread <;> cases right.reread <;> rfl

theorem isAbsent_portable (tree : Tree) : tree.portable.isAbsent = false := by
  cases tree <;> rfl

/-- A rule whose fields have names is the rule of its portable form. -/
theorem toTree_portable {tree : Tree} (h : ∀ field ∈ tree.fields, field ≠ "") :
    tree.portable.toTree = .ok (some tree) := by
  induction tree with
  | leaf c =>
      have hfield : c.field.isEmpty = false := by
        rw [Bool.eq_false_iff]
        intro hempty
        exact h c.field (.head _) (String.isEmpty_iff.1 hempty)
      rw [portable, PortableTree.toTree, if_pos rfl, PortableTree.toLeaf, hfield,
        Comparator.ofSymbol?_symbol]
      rfl
  | operator op left right ihleft ihright =>
      have hleft := ihleft fun field hfield => h field (List.mem_append_left _ hfield)
      have hright := ihright fun field hfield => h field (List.mem_append_right _ hfield)
      rw [portable, PortableTree.toTree, if_neg (by decide), if_pos rfl,
        LogicalOp.ofKeyword?_keyword, hleft, hright, isAbsent_portable, isAbsent_portable]
      rfl

/-- A rule whose fields have names is read back from its JSON text with the values that
its literals are read back as, unless it is too high. -/
theorem ofJson_json {tree : Tree} (h : ∀ field ∈ tree.fields, field ≠ "") :
    Tree.ofJson tree.portable.json =
      if tree.depth < Json.maxNesting then tree.found
      else .error (.faultyData .unreadable) := by
  rw [Tree.ofJson, PortableTree.ofJson_json, levels_portable, reread_portable]
  by_cases hdepth : tree.depth < Json.maxNesting
  · rw [if_pos (Nat.succ_le_of_lt hdepth), if_pos hdepth, found]
    cases hreread : tree.reread with
    | none => rfl
    | some tree' => exact toTree_portable (fields_of_reread hreread ▸ h)
  · rw [if_neg (fun hlevels => hdepth (Nat.lt_of_succ_le hlevels)), if_neg hdepth]

end Tree

end Rulebook
