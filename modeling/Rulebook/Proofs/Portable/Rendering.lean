import Rulebook.Proofs.Portable.Tree
import Rulebook.Proofs.Text.Class

/-!
# Older records are read as the same rules

A rule without floating-point numbers can be written as JSON in many ways (`Tree.Renders`): the
members of each object come in any order, each key of a payload has its present name or an older
one, and each child of a leaf is `null` or left out.  Whichever way is taken, the portable form of
the rule is read (`Tree.Renders.ofDocument?`), and so is the rule itself, with any blanks and
escapes in the text (`Tree.ofJson_of_renders`).

The order of members matters nowhere, since each is looked up by its key (`Slot.find_perm`).
-/

namespace Rulebook

open Json

/-! ## Members in any order -/

namespace Json

theorem Slot.find_perm (names : List String) {members others : List (String × Document)}
    (h : members.Perm others) : Slot.find names members = Slot.find names others := by
  have hfilter := h.filter fun m => names.contains m.1
  rw [find, find]
  generalize members.filter (fun m => names.contains m.1) = found at hfilter
  generalize others.filter (fun m => names.contains m.1) = found' at hfilter
  have hlength := hfilter.length_eq
  rcases found' with _ | ⟨m, _ | ⟨m', rest⟩⟩
  · rw [hfilter.eq_nil]
  · rw [List.perm_singleton.1 hfilter]
  · rcases found with _ | ⟨n, _ | ⟨n', rest'⟩⟩
    · simp at hlength
    · simp at hlength
    · rfl

namespace Document

/-- An object with the given keys. -/
def ofNamed (named : List (String × Document)) : Document :=
  object (named.map fun m => (unitsOf m.1, m.2))

/-- The named values are the members of an object, in any order. -/
def HasMembers (d : Document) (named : List (String × Document)) : Prop :=
  ∃ members : List (String × Document), members.Perm named ∧ d = ofNamed members

theorem textMembers?_map (named : List (String × Document)) :
    textMembers? (named.map fun m => (unitsOf m.1, m.2)) = some named := by
  induction named with
  | nil => rfl
  | cons m rest ih =>
      rw [List.map_cons, textMembers?_cons, ih]
      rfl

theorem isReadable_of_text? {d : Document} {s : String} (h : d.text? = some s) (levels : Nat) :
    d.isReadable levels = true := by
  cases d with
  | string units =>
      replace h : textOf? units = some s := h
      rw [isReadable, h]
      rfl
  | _ => cases h

theorem isReadable_ofNamed {levels : Nat} {named : List (String × Document)}
    (h : ∀ m ∈ named, m.2.isReadable levels = true) :
    (ofNamed named).isReadable (levels + 1) = true := by
  rw [ofNamed, isReadable, List.all_map, List.all_eq_true]
  intro m hm
  simp [h m hm]

theorem isWritable_ofNamed {named : List (String × Document)}
    (h : ∀ m ∈ named, ∀ t ∈ m.2.tokens, t.IsWritable) :
    ∀ t ∈ (ofNamed named).tokens, t.IsWritable := by
  refine isWritable_object ?_
  intro m hm
  obtain ⟨n, hn, rfl⟩ := List.mem_map.1 hm
  exact Member.isWritable_unitsOf n.1 (h n hn)

end Document

end Json

/-! ## Payloads -/

/-- The names that the keys of payloads may have. -/
structure PayloadNames where
  field : List String
  comparator : List String
  literal : List String
  kind : List String

namespace PayloadNames

/-- The names that are written. -/
def present : PayloadNames := ⟨["field"], ["comparator"], ["literal"], ["kind"]⟩

/-- The names that are read, the older ones among them. -/
def known : PayloadNames :=
  ⟨["field", "lvariable"], ["comparator", "comparison_type"], ["literal", "rvalue"],
    ["kind", "type"]⟩

end PayloadNames

/-- An integer or a text as JSON. -/
inductive Value.Renders : Value → Document → Prop where
  | int (i : Int64) : Renders (.int i) (.number (.ofInt i.toInt))
  | text {units : List TextUnit} {s : String} :
      textOf? units = some s → Renders (.text s) (.string units)

/-- A comparison as the payload of a leaf. -/
inductive Condition.Renders (names : PayloadNames) (c : Condition) : Document → Prop where
  | intro {fieldKey comparatorKey literalKey : String} {field comparator literal d : Document} :
      fieldKey ∈ names.field → comparatorKey ∈ names.comparator → literalKey ∈ names.literal →
      field.text? = some c.field → comparator.text? = some c.comparator.symbol →
      c.literal.Renders literal →
      d.HasMembers [(fieldKey, field), (comparatorKey, comparator), (literalKey, literal)] →
      Renders names c d

/-- An operator as the payload of a join. -/
inductive LogicalOp.Renders (names : PayloadNames) (op : LogicalOp) : Document → Prop where
  | intro {kindKey : String} {kind d : Document} :
      kindKey ∈ names.kind → kind.text? = some op.keyword → d.HasMembers [(kindKey, kind)] →
      Renders names op d

theorem Value.Renders.ofDocument? {v : Value} {d : Document} (h : v.Renders d) :
    Value.ofDocument? d = some v := by
  cases h with
  | int i => exact reread_int i
  | text hs => rw [Value.ofDocument?, hs, Option.map_some]

theorem Value.Renders.isReadable {v : Value} {d : Document} (h : v.Renders d) (levels : Nat) :
    d.isReadable levels = true := by
  cases h with
  | int i => exact isReadable_of_reread (reread_int i) levels
  | @text units s hs =>
      have htext : (Document.string units).text? = some s := hs
      exact Document.isReadable_of_text? htext levels

theorem Payload.condition?_perm {members named : List (String × Document)}
    (h : members.Perm named) : condition? members = condition? named := by
  simp only [condition?, Slot.find_perm _ h]

theorem Payload.operator?_perm {members named : List (String × Document)}
    (h : members.Perm named) : operator? members = operator? named := by
  simp only [operator?, Slot.find_perm _ h]

/-- A payload is read from its members, whatever their order. -/
theorem Payload.ofDocument?_of_hasMembers {d : Document} {named : List (String × Document)}
    (h : d.HasMembers named) {levels : Nat}
    (hreadable : ∀ m ∈ named, m.2.isReadable levels = true) :
    ofDocument? (levels + 1) d = (condition? named <|> operator? named) := by
  obtain ⟨members, hperm, rfl⟩ := h
  have hread : (Document.ofNamed members).isReadable (levels + 1) = true :=
    Document.isReadable_ofNamed fun m hm => hreadable m (hperm.mem_iff.1 hm)
  rw [Document.ofNamed] at hread ⊢
  rw [ofDocument?, if_pos hread]
  simp only [Document.textMembers?_map, Option.bind_some, condition?_perm hperm,
    operator?_perm hperm]

theorem Condition.Renders.ofDocument? {c : Condition} {d : Document}
    (h : c.Renders .known d) (levels : Nat) :
    Payload.ofDocument? (levels + 1) d =
      some (.condition c.field c.comparator.symbol c.literal) := by
  cases h with
  | @intro fieldKey comparatorKey literalKey field comparator literal _ hfieldKey
      hcomparatorKey hliteralKey hfield hcomparator hliteral hmembers =>
      have hcondition : Payload.condition? [(fieldKey, field), (comparatorKey, comparator),
          (literalKey, literal)] =
            some (.condition c.field c.comparator.symbol c.literal) := by
        -- No name stands for two keys, so each is found just once under either of its names.
        simp only [PayloadNames.known, List.mem_cons, List.not_mem_nil, or_false]
          at hfieldKey hcomparatorKey hliteralKey
        rcases hfieldKey with rfl | rfl <;> rcases hcomparatorKey with rfl | rfl <;>
          rcases hliteralKey with rfl | rfl <;>
          simp [Payload.condition?, Slot.find, hfield, hcomparator, hliteral.ofDocument?]
      rw [Payload.ofDocument?_of_hasMembers hmembers, hcondition]
      · rfl
      · simp [Document.isReadable_of_text? hfield, Document.isReadable_of_text? hcomparator,
          hliteral.isReadable]

theorem LogicalOp.Renders.ofDocument? {op : LogicalOp} {d : Document}
    (h : op.Renders .known d) (levels : Nat) :
    Payload.ofDocument? (levels + 1) d = some (.operator op.keyword) := by
  cases h with
  | @intro kindKey kind _ hkey hkind hmembers =>
      rw [Payload.ofDocument?_of_hasMembers hmembers]
      · -- A comparison is looked for first, and none of its keys is there.
        simp only [PayloadNames.known, List.mem_cons, List.not_mem_nil, or_false] at hkey
        rcases hkey with rfl | rfl <;>
          simp [Payload.condition?, Payload.operator?, Slot.find, hkind]
      · simp [Document.isReadable_of_text? hkind]

/-! ## Rules -/

/-- The ways to write a rule as JSON, with the given names in its payloads.  The children of a
leaf are `null` or left out. -/
inductive Tree.Renders (names : PayloadNames) : Tree → Document → Prop where
  | leaf {c : Condition} {nodeType value d : Document} {children : List (String × Document)} :
      nodeType.text? = some operandType → c.Renders names value →
      children.Sublist [("left", .null), ("right", .null)] →
      d.HasMembers (("node_type", nodeType) :: (children ++ [("value", value)])) →
      Renders names (.leaf c) d
  | operator {op : LogicalOp} {left right : Tree} {nodeType value l r d : Document} :
      nodeType.text? = some operatorType → op.Renders names value →
      Renders names left l → Renders names right r →
      d.HasMembers [("node_type", nodeType), ("left", l), ("right", r), ("value", value)] →
      Renders names (.operator op left right) d

namespace PortableTree

theorem ofDocument?_of_hasMembers {d : Document} {named : List (String × Document)}
    (h : d.HasMembers named) (levels : Nat) {nodeType left right payload : Document}
    (hnodeType : Slot.find ["node_type"] named = .once nodeType)
    (hleft : (Slot.find ["left"] named).child? = some left)
    (hright : (Slot.find ["right"] named).child? = some right)
    (hpayload : Slot.find ["value"] named = .once payload) :
    ofDocument? (levels + 1) d =
      ofParts? (ofDocument? levels) levels nodeType left right payload := by
  obtain ⟨members, hperm, rfl⟩ := h
  rw [Document.ofNamed, ofDocument?, Document.textMembers?_map, Option.bind_some]
  simp only [Slot.find_perm _ hperm, hnodeType, hpayload, hleft, hright]

end PortableTree

namespace Tree

/-- A leaf is read without children, whether they are left out or not. -/
theorem child?_of_sublist {nodeType value : Document} {children : List (String × Document)}
    (h : children.Sublist [("left", .null), ("right", .null)]) :
    let named := ("node_type", nodeType) :: (children ++ [("value", value)])
    Slot.find ["node_type"] named = .once nodeType ∧
      (Slot.find ["left"] named).child? = some .null ∧
      (Slot.find ["right"] named).child? = some .null ∧
      Slot.find ["value"] named = .once value := by
  simp only [List.sublist_cons_iff, List.sublist_nil, exists_eq_right] at h
  rcases h with (rfl | rfl) | ⟨_, rfl, rfl | rfl⟩ <;> simp [Slot.find, Slot.child?]

/-- Whichever way a rule is written, its portable form is read. -/
theorem Renders.ofDocument? {tree : Tree} {d : Document} (h : tree.Renders .known d)
    {levels : Nat} (hlevels : tree.depth < levels) :
    PortableTree.ofDocument? levels d = some tree.portable := by
  induction h generalizing levels with
  | @leaf c nodeType value d children hnodeType hvalue hchildren hmembers =>
      -- A leaf nests two levels deep, its node and its payload.
      obtain ⟨n, rfl⟩ : ∃ n, levels = n + 2 := Nat.exists_eq_add_of_le' hlevels
      obtain ⟨htype, hleft, hright, hpayload⟩ := child?_of_sublist hchildren
      rw [PortableTree.ofDocument?_of_hasMembers hmembers (n + 1) htype hleft hright hpayload,
        PortableTree.ofParts?, hnodeType, hvalue.ofDocument? n]
      rfl
  | @operator op left right nodeType value l r d hnodeType hvalue _ _ hmembers ihleft ihright =>
      rw [depth] at hlevels
      obtain ⟨n, rfl⟩ : ∃ n, levels = n + 2 := Nat.exists_eq_add_of_le' (by omega)
      have hparts : PortableTree.ofDocument? (n + 2) d =
          PortableTree.ofParts? (PortableTree.ofDocument? (n + 1)) (n + 1) nodeType l r value :=
        PortableTree.ofDocument?_of_hasMembers hmembers (n + 1) rfl rfl rfl rfl
      rw [hparts, PortableTree.ofParts?, hnodeType, hvalue.ofDocument? n, ihleft (by omega),
        ihright (by omega)]
      rfl

theorem Renders.not_float {names : PayloadNames} {tree : Tree} {d : Document}
    (h : tree.Renders names d) (x : Binary64) : .float x ∉ tree.literals := by
  induction h with
  | leaf _ hvalue _ _ =>
      intro hx
      cases hvalue with
      | intro _ _ _ _ _ hliteral _ =>
          rw [← List.mem_singleton.1 hx] at hliteral
          cases hliteral
  | operator _ _ _ _ _ ihleft ihright => exact List.not_mem_append ihleft ihright

/-- The JSON text of a rule without floating-point numbers is one of the ways to write it, with
the present names alone. -/
theorem renders_portable {tree : Tree} (h : ∀ x, .float x ∉ tree.literals) :
    tree.Renders .present tree.portable.document := by
  induction tree with
  | leaf c =>
      have hliteral : c.literal.Renders c.literal.document := by
        cases hvalue : c.literal with
        | int i => exact .int i
        | text s => exact .text (textOf?_unitsOf s)
        | float x => exact absurd (List.mem_singleton.2 hvalue.symm) (h x)
      have hcondition : c.Renders .present
          (Payload.condition c.field c.comparator.symbol c.literal).document :=
        .intro (.head _) (.head _) (.head _) (Document.text?_string_unitsOf _)
          (Document.text?_string_unitsOf _) hliteral ⟨_, .refl _, rfl⟩
      exact .leaf (Document.text?_string_unitsOf _) hcondition (.refl _) ⟨_, .refl _, rfl⟩
  | operator op left right ihleft ihright =>
      have hoperator : op.Renders .present (Payload.operator op.keyword).document :=
        .intro (.head _) (Document.text?_string_unitsOf _) ⟨_, .refl _, rfl⟩
      exact .operator (Document.text?_string_unitsOf _) hoperator
        (ihleft fun x hx => h x (List.mem_append_left _ hx))
        (ihright fun x hx => h x (List.mem_append_right _ hx)) ⟨_, .refl _, rfl⟩

theorem Renders.mem_tokens {names : PayloadNames} {tree : Tree} {d : Document}
    (h : tree.Renders names d) : Token.openBrace ∈ d.tokens := by
  have hobject : ∃ named, d.HasMembers named := by
    cases h with
    | leaf _ _ _ hmembers => exact ⟨_, hmembers⟩
    | operator _ _ _ _ hmembers => exact ⟨_, hmembers⟩
  obtain ⟨_, members, -, rfl⟩ := hobject
  exact .head _

/-- A rule whose fields have names, and which is at most 126 high, is read from whatever text it
is written as, with present or older names.  It is written again with the present names alone. -/
theorem ofJson_of_renders {tree : Tree} {d : Document} {text : String} (hdepth : tree.depth ≤ 126)
    (hfields : ∀ field ∈ tree.fields, field ≠ "") (hrenders : tree.Renders .known d)
    (htext : d.Spells text.toList) :
    Tree.ofJson text = .ok (some tree) ∧
      (Tree.ofJson text).map Tree.toJson = .ok (String.ofList tree.portable.document.text) ∧
      tree.Renders .present tree.portable.document := by
  have hblank : Text.isBlankText text = false := by
    rw [Text.isBlankText_eq_false_iff]
    exact ⟨'{', htext.mem_openBrace hrenders.mem_tokens, by decide⟩
  have hread : Tree.ofJson text = .ok (some tree) := by
    have hportable : PortableTree.ofDocument? maxNesting d = some tree.portable :=
      hrenders.ofDocument? (Nat.lt_succ_of_le hdepth)
    rw [Tree.ofJson, PortableTree.ofJson, hblank, htext.parse?, Option.bind_some, hportable]
    exact toTree_portable hfields
  refine ⟨hread, ?_, renders_portable hrenders.not_float⟩
  rw [hread]
  rfl

/-- Members in reverse order, some of them with older names, and children left out. -/
theorem ofJson_of_renders_older :
    let leaf : Tree := .leaf ⟨"名", .greater, .int (-5)⟩
    let operand := "\x7b\"value\":\x7b\"rvalue\":-5,\"comparator\":\">\"," ++
      "\"lvariable\":\"名\"\x7d,\"node_type\":\"operand\"\x7d"
    let text := "\n\x7b\"value\":\x7b\"type\":\"OR\"\x7d,\"right\":" ++ operand ++ ",\"left\":" ++
      operand ++ ",\"node_type\":\"operator\"\x7d"
    let canonical := (operator .or leaf leaf).portable.document.text
    Tree.ofJson text = .ok (some (.operator .or leaf leaf)) ∧
      (Tree.ofJson text).map Tree.toJson = .ok (String.ofList canonical) := by
  intro leaf operand text canonical
  let string (s : String) : Document := .string (unitsOf s)
  let payload : Document := .ofNamed [("rvalue", .number (.ofInt (-5))),
    ("comparator", string ">"), ("lvariable", string "名")]
  let leafDocument : Document := .ofNamed [("value", payload), ("node_type", string "operand")]
  let d : Document := .ofNamed [("value", .ofNamed [("type", string "OR")]),
    ("right", leafDocument), ("left", leafDocument), ("node_type", string "operator")]
  have hstring (s : String) : (string s).text? = some s := Document.text?_string_unitsOf s
  have hpayload : Condition.Renders .known ⟨"名", .greater, .int (-5)⟩ payload :=
    .intro (by decide) (by decide) (by decide) (hstring _) (hstring _) (.int (-5))
      ⟨_, List.reverse_perm _, rfl⟩
  have hleaf : leaf.Renders .known leafDocument :=
    .leaf (hstring _) hpayload (List.nil_sublist _) ⟨_, List.reverse_perm _, rfl⟩
  have hrenders : (operator .or leaf leaf).Renders .known d :=
    .operator (hstring _) (.intro (by decide) (hstring _) ⟨_, .refl _, rfl⟩) hleaf hleaf
      ⟨_, List.reverse_perm _, rfl⟩
  have hwords (s : String) : ∀ t ∈ (string s).tokens, t.IsWritable := Document.isWritable_string s
  have hleafTokens : ∀ t ∈ leafDocument.tokens, t.IsWritable := by
    refine Document.isWritable_ofNamed (List.forall_mem_cons.2 ⟨?_,
      List.forall_mem_singleton.2 (hwords _)⟩)
    exact Document.isWritable_ofNamed (List.forall_mem_cons.2 ⟨(Value.int (-5)).isWritable_tokens,
      List.forall_mem_cons.2 ⟨hwords _, List.forall_mem_singleton.2 (hwords _)⟩⟩)
  have hwritable : ∀ t ∈ d.tokens, t.IsWritable := by
    refine Document.isWritable_ofNamed (List.forall_mem_cons.2 ⟨?_, List.forall_mem_cons.2
      ⟨hleafTokens, List.forall_mem_cons.2 ⟨hleafTokens,
        List.forall_mem_singleton.2 (hwords _)⟩⟩⟩)
    exact Document.isWritable_ofNamed (List.forall_mem_singleton.2 (hwords _))
  have htext : d.Spells text.toList := by
    have hoperand : operand = String.ofList leafDocument.text := by decide +kernel
    have hlist : text.toList = '\n' :: d.text := by
      simp only [text, String.toList_append, hoperand, String.toList_ofList]
      decide +kernel
    rw [hlist]
    exact .separator (by decide) (Document.spells_text hwritable)
  obtain ⟨hread, hwritten, -⟩ := ofJson_of_renders (by decide) (by decide) hrenders htext
  exact ⟨hread, hwritten⟩

end Tree

end Rulebook
