import Rulebook.Proofs.Portable.Tree

/-!
# Round trips through JSON

What is read back from the JSON text of a rule differs from the rule at most in
floating-point numbers (`Tree.UpToFloats`), and a rule is read back exactly if it is not too
high (`Tree.ofJson_toJson`).

The rule of a portable form is the one that the form was made from, whatever its fields are
(`Tree.eq_of_toTree_portable`), so only values can change on the way.
-/

namespace Rulebook

/-! ## Differences in floating-point numbers -/

/-- Two values are of one kind, and equal unless they are floating-point numbers. -/
inductive Value.UpToFloat : Value → Value → Prop where
  | int (i : Int64) : UpToFloat (.int i) (.int i)
  | float (x y : Binary64) : UpToFloat (.float x) (.float y)
  | text (s : String) : UpToFloat (.text s) (.text s)

/-- Two rules have the same shape, operators, fields and comparators, and compare with
values that differ at most as floating-point numbers. -/
inductive Tree.UpToFloats : Tree → Tree → Prop where
  | leaf {field : String} {comparator : Comparator} {v w : Value} :
      v.UpToFloat w → UpToFloats (.leaf ⟨field, comparator, v⟩) (.leaf ⟨field, comparator, w⟩)
  | operator {op : LogicalOp} {left right left' right' : Tree} :
      UpToFloats left left' → UpToFloats right right' →
      UpToFloats (.operator op left right) (.operator op left' right')

/-- What is read back for a value is of its kind, and the value itself unless it is a
floating-point number. -/
theorem Value.upToFloat_of_reread {v w : Value} (h : v.reread = some w) : v.UpToFloat w := by
  cases v with
  | int i =>
      rw [reread_int] at h
      cases h
      exact .int i
  | text s =>
      rw [reread_text] at h
      cases h
      exact .text s
  | float x =>
      rw [reread_float] at h
      split at h
      next =>
        obtain ⟨number, hnumber, hw⟩ := Option.map_eq_some_iff.1 h
        obtain ⟨y, rfl⟩ := (x.isFloat_numeral .json).eq_float hnumber
        cases hw
        exact .float x y
      next => cases h

namespace Tree

theorem upToFloats_of_reread {tree tree' : Tree} (h : tree.reread = some tree') :
    tree.UpToFloats tree' := by
  induction tree generalizing tree' with
  | leaf c =>
      obtain ⟨literal, hliteral, rfl⟩ := Option.map_eq_some_iff.1 h
      exact .leaf (Value.upToFloat_of_reread hliteral)
  | operator op left right ihleft ihright =>
      obtain ⟨left', right', hleft, hright, rfl⟩ := reread_operator_eq_some_iff.1 h
      exact .operator (ihleft hleft) (ihright hright)

/-! ## The rule of a portable form -/

theorem eq_of_toTree_portable {tree : Tree} {root : Option Tree}
    (h : tree.portable.toTree = .ok root) : root = some tree := by
  induction tree generalizing root with
  | leaf c =>
      rw [portable, PortableTree.toTree, if_pos rfl, PortableTree.toLeaf,
        Comparator.ofSymbol?_symbol] at h
      cases hempty : c.field.isEmpty with
      | true => simp [hempty, PortableTree.isAbsent, Except.map] at h
      | false =>
          simp only [hempty] at h
          cases h
          rfl
  | operator op left right ihleft ihright =>
      rw [portable, PortableTree.toTree, if_neg (by decide), if_pos rfl,
        LogicalOp.ofKeyword?_keyword] at h
      simp only [isAbsent_portable, Bool.or_self, Bool.false_eq_true, if_false] at h
      cases hleft : left.portable.toTree with
      | error e =>
          rw [hleft] at h
          cases h
      | ok l =>
          obtain rfl := ihleft hleft
          cases hright : right.portable.toTree with
          | error e =>
              rw [hleft, hright] at h
              cases h
          | ok r =>
              obtain rfl := ihright hright
              rw [hleft, hright] at h
              cases h
              rfl

/-- Whatever is read from the JSON text of a rule is the rule that is read back. -/
theorem reread_of_ofJson_json {tree tree' : Tree}
    (h : Tree.ofJson tree.portable.json = .ok (some tree')) : tree.reread = some tree' := by
  rw [Tree.ofJson, PortableTree.ofJson_json, reread_portable] at h
  by_cases hlevels : tree.portable.levels ≤ Json.maxNesting
  · rw [if_pos hlevels] at h
    cases hreread : tree.reread with
    | none =>
        rw [hreread] at h
        cases h
    | some back =>
        rw [hreread] at h
        exact (eq_of_toTree_portable h).symm
  · rw [if_neg hlevels] at h
    cases h

/-! ## Round trips -/

/-- A rule without floating-point numbers whose fields have names is read back from its JSON
text if it is at most 126 high, and is unreadable otherwise.  With floating-point numbers,
and whatever the fields, all that can be read back differs from the rule in the numbers
alone. -/
theorem ofJson_toJson (tree : Tree) :
    ((∀ field ∈ tree.fields, field ≠ "") → (∀ x, .float x ∉ tree.literals) →
      Tree.ofJson (Tree.toJson (some tree)) =
        if tree.depth ≤ 126 then .ok (some tree) else .error (.faultyData .unreadable)) ∧
    ∀ tree', Tree.ofJson (Tree.toJson (some tree)) = .ok (some tree') →
      tree.UpToFloats tree' := by
  constructor
  · intro hfields hfloats
    have hreread : tree.reread = some tree :=
      (reread_eq_self_iff tree).2 fun x hx => absurd hx (hfloats x)
    show Tree.ofJson tree.portable.json = _
    rw [ofJson_json hfields, found, hreread]
    simp only [Json.maxNesting, Nat.lt_succ_iff]
  · intro tree' h
    exact upToFloats_of_reread (reread_of_ofJson_json h)

/-- A rule of the greatest height is read back, one that is higher by one is not, and a number
with seventeen digits is read back as another one. -/
theorem ofJson_toJson_boundary :
    let leaf : Tree := .leaf ⟨"\"名\n", .equal, .int (-9223372036854775808)⟩
    let chain (n : Nat) : Tree := (List.replicate n leaf).foldl (operator .and) leaf
    let number (bits : UInt64) : Tree := .leaf ⟨"a", .less, .float (.ofBits bits)⟩
    Tree.ofJson (Tree.toJson (some (chain 125))) = .ok (some (chain 125)) ∧
      Tree.ofJson (Tree.toJson (some (chain 126))) = .error (.faultyData .unreadable) ∧
      (number 0x3FFCC359E067A348).UpToFloats (number 0x3FFCC359E067A347) := by
  intro leaf chain number
  have hchain : ∀ n ∈ [125, 126], (chain n).depth = n + 1 ∧
      (∀ field ∈ (chain n).fields, field ≠ "") ∧
      ∀ v ∈ (chain n).literals, v = .int (-9223372036854775808) := by
    decide +kernel
  have hfloats : ∀ n ∈ [125, 126], ∀ x, .float x ∉ (chain n).literals :=
    fun n hn x hx => nomatch (hchain n hn).2.2 _ hx
  have hlow : 125 ∈ [125, 126] := .head _
  have hhigh : 126 ∈ [125, 126] := .tail _ (.head _)
  refine ⟨?_, ?_, ?_⟩
  · rw [(ofJson_toJson _).1 (hchain _ hlow).2.1 (hfloats _ hlow), (hchain _ hlow).1]
    rfl
  · rw [(ofJson_toJson _).1 (hchain _ hhigh).2.1 (hfloats _ hhigh), (hchain _ hhigh).1]
    rfl
  · exact (ofJson_toJson _).2 _ (by decide +kernel)

end Tree

end Rulebook
