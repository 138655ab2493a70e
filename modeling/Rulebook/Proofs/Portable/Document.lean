import Rulebook.Portable.Document
import Rulebook.Proofs.Json.Number
import Rulebook.Proofs.Json.Reader

/-!
# Portable forms are read back from JSON

A value that is written and read back is the same value, unless it is a floating-point
number (`Value.reread_int`, `Value.reread_text`).  A portable form is read back with the
values that its own are read back as (`PortableTree.reread`), provided that it does not
nest deeper than is read (`PortableTree.ofJson_json`).
-/

namespace Rulebook

open Json

/-! ## Values -/

namespace Value

/-- The value that is read back where a value is written. -/
def reread (v : Value) : Option Value := ofDocument? v.document

theorem number?_ofInt64 (i : Int64) :
    (Numeral.ofInt i.toInt).number? = some (.int i.toInt) := by
  have hhigh : i.toInt < UInt64.size := Int.lt_trans i.toInt_lt (by decide)
  exact Numeral.number?_ofInt i.minValue_le_toInt hhigh

theorem reread_int (i : Int64) : (int i).reread = some (int i) := by
  simp only [reread, document, ofDocument?, number?_ofInt64, Option.map_some, ofInt?_toInt,
    Option.getD_some]

theorem reread_text (s : String) : (text s).reread = some (text s) := by
  rw [reread, document, ofDocument?, textOf?_unitsOf, Option.map_some]

/-- A number that is not finite is written as `null`, which is no value. -/
theorem reread_float (x : Binary64) : (float x).reread =
    if x.isFinite then
      (x.numeral .json).number?.map fun
        | .int i => (ofInt? i).getD (.float (Binary64.ofInt i))
        | .float y => .float y
    else none := by
  rw [reread, document]
  split <;> rfl

theorem isReadable_of_reread {v v' : Value} (h : v.reread = some v') (levels : Nat) :
    v.document.isReadable levels = true := by
  cases v with
  | int i => cases levels <;> simp [document, Document.isReadable, number?_ofInt64]
  | text s => cases levels <;> simp [document, Document.isReadable, textOf?_unitsOf]
  | float x =>
      rw [reread_float] at h
      split at h
      next hfinite =>
        obtain ⟨number, hnumber, -⟩ := Option.map_eq_some_iff.1 h
        cases levels <;> simp [document, Document.isReadable, hfinite, hnumber]
      next => cases h

end Value

/-! ## Objects -/

namespace Json

@[simp]
theorem isSome_textOf?_unitsOf (s : String) : (textOf? (unitsOf s)).isSome = true := by
  rw [textOf?_unitsOf, Option.isSome_some]

@[simp]
theorem Document.textMembers?_nil : textMembers? [] = some [] := rfl

@[simp]
theorem Document.textMembers?_cons (key : String) (d : Document) (rest : List Member) :
    textMembers? ((unitsOf key, d) :: rest) = (textMembers? rest).map ((key, d) :: ·) := by
  rw [textMembers?, textOf?_unitsOf]
  cases textMembers? rest <;> rfl

@[simp]
theorem Document.text?_string_unitsOf (s : String) : (string (unitsOf s)).text? = some s :=
  textOf?_unitsOf s

/-- The key and the value of a member can be written. -/
def Member.IsWritable (m : Member) : Prop :=
  (∀ u ∈ m.1, u.IsProper) ∧ ∀ t ∈ m.2.tokens, t.IsWritable

theorem Member.isWritable_unitsOf (key : String) {d : Document}
    (h : ∀ t ∈ d.tokens, t.IsWritable) : Member.IsWritable (unitsOf key, d) :=
  ⟨fun _ hu => isProper_of_mem_unitsOf hu, h⟩

theorem Document.isWritable_moreItemTokens {items : List Document}
    (h : ∀ d ∈ items, ∀ t ∈ d.tokens, t.IsWritable) :
    ∀ t ∈ moreItemTokens items, t.IsWritable := by
  induction items with
  | nil =>
      intro t ht
      obtain rfl := List.mem_singleton.1 ht
      trivial
  | cons d rest ih =>
      intro t ht
      simp only [moreItemTokens, List.cons_append, List.mem_cons, List.mem_append] at ht
      rcases ht with rfl | ht | ht
      · trivial
      · exact h d (.head _) t ht
      · exact ih (fun d hd => h d (.tail _ hd)) t ht

/-- The tokens of an array can be written if those of its items can. -/
theorem Document.isWritable_array {items : List Document}
    (h : ∀ d ∈ items, ∀ t ∈ d.tokens, t.IsWritable) :
    ∀ t ∈ (array items).tokens, t.IsWritable := by
  have hmore := isWritable_moreItemTokens h
  intro t ht
  rw [tokens, List.mem_cons] at ht
  rcases ht with rfl | ht
  · trivial
  · cases items with
    | nil => exact hmore t ht
    | cons d rest =>
        have hcomma : moreItemTokens (d :: rest) = .comma :: itemTokens (d :: rest) := by
          rw [moreItemTokens, itemTokens]
          rfl
        exact hmore t (hcomma ▸ .tail .comma ht)

theorem Document.isWritable_moreMemberTokens {members : List Member}
    (h : ∀ m ∈ members, Member.IsWritable m) :
    ∀ t ∈ moreMemberTokens members, t.IsWritable := by
  induction members with
  | nil =>
      intro t ht
      obtain rfl := List.mem_singleton.1 ht
      trivial
  | cons m rest ih =>
      obtain ⟨key, d⟩ := m
      obtain ⟨hkey, hvalue⟩ := h (key, d) (.head _)
      intro t ht
      simp only [moreMemberTokens, List.cons_append, List.mem_cons, List.mem_append] at ht
      rcases ht with rfl | rfl | rfl | ht | ht
      · trivial
      · exact hkey
      · trivial
      · exact hvalue t ht
      · exact ih (fun m hm => h m (.tail _ hm)) t ht

/-- The tokens of an object can be written if those of its keys and values can. -/
theorem Document.isWritable_object {members : List Member}
    (h : ∀ m ∈ members, Member.IsWritable m) :
    ∀ t ∈ (object members).tokens, t.IsWritable := by
  have hmore := isWritable_moreMemberTokens h
  intro t ht
  rw [tokens, List.mem_cons] at ht
  rcases ht with rfl | ht
  · trivial
  · cases members with
    | nil => exact hmore t ht
    | cons m rest =>
        obtain ⟨key, d⟩ := m
        have hcomma : moreMemberTokens ((key, d) :: rest) =
            .comma :: memberTokens ((key, d) :: rest) := by
          rw [moreMemberTokens, memberTokens]
          rfl
        exact hmore t (hcomma ▸ .tail .comma ht)

theorem Document.isWritable_string (s : String) :
    ∀ t ∈ (string (unitsOf s)).tokens, t.IsWritable := by
  intro t ht
  rw [tokens, List.mem_singleton] at ht
  subst ht
  exact fun u => isProper_of_mem_unitsOf

end Json

theorem Value.isWritable_tokens (v : Value) : ∀ t ∈ v.document.tokens, t.IsWritable := by
  cases v with
  | int i =>
      intro t ht
      obtain rfl := List.mem_singleton.1 ht
      exact Numeral.isJson_ofInt i.toInt
  | text s => exact Document.isWritable_string s
  | float x =>
      intro t ht
      rw [document] at ht
      split at ht
      next =>
        obtain rfl := List.mem_singleton.1 ht
        exact x.isJson_numeral .json
      next =>
        obtain rfl := List.mem_singleton.1 ht
        trivial

/-! ## Payloads -/

namespace Payload

/-- The payload that is read back where a payload is written. -/
def reread : Payload → Option Payload
  | condition field comparator literal => literal.reread.map (condition field comparator ·)
  | operator kind => some (operator kind)

theorem condition?_members (field comparator : String) (d : Document) :
    condition? [("field", .string (unitsOf field)), ("comparator", .string (unitsOf comparator)),
      ("literal", d)] = (Value.ofDocument? d).map (condition field comparator ·) := by
  cases hd : Value.ofDocument? d <;> simp [condition?, Slot.find, hd]

theorem operator?_members (field comparator : String) (d : Document) :
    operator? [("field", .string (unitsOf field)), ("comparator", .string (unitsOf comparator)),
      ("literal", d)] = none := by
  simp [operator?, Slot.find]

/-- A payload nests one level deep. -/
theorem ofDocument?_document (levels : Nat) (p : Payload) :
    ofDocument? (levels + 1) p.document = p.reread := by
  cases p with
  | operator kind =>
      simp [ofDocument?, document, Document.isReadable, condition?, operator?, Slot.find,
        reread]
  | condition field comparator literal =>
      have hread : Value.ofDocument? literal.document = literal.reread := rfl
      cases hreread : literal.reread with
      | some literal' =>
          have hliteral := Value.isReadable_of_reread hreread levels
          simp [ofDocument?, document, Document.isReadable, hliteral, condition?_members,
            operator?_members, hread, hreread, reread]
      | none =>
          rw [document, ofDocument?]
          split
          next => simp [condition?_members, operator?_members, hread, hreread, reread]
          next => simp [reread, hreread]

theorem ofDocument?_zero (p : Payload) : ofDocument? 0 p.document = none := by
  cases p <;> rfl

theorem isWritable_tokens (p : Payload) : ∀ t ∈ p.document.tokens, t.IsWritable := by
  cases p with
  | condition field comparator literal =>
      refine Document.isWritable_object ?_
      intro m hm
      simp only [List.mem_cons, List.not_mem_nil, or_false] at hm
      rcases hm with rfl | rfl | rfl
      · exact Member.isWritable_unitsOf _ (Document.isWritable_string field)
      · exact Member.isWritable_unitsOf _ (Document.isWritable_string comparator)
      · exact Member.isWritable_unitsOf _ literal.isWritable_tokens
  | operator kind =>
      refine Document.isWritable_object ?_
      intro m hm
      obtain rfl := List.mem_singleton.1 hm
      exact Member.isWritable_unitsOf _ (Document.isWritable_string kind)

end Payload

/-! ## Portable forms -/

namespace PortableTree

/-- The portable form that is read back where one is written. -/
def reread : PortableTree → Option PortableTree
  | absent => some absent
  | node nodeType left right payload =>
      match left.reread, right.reread, payload.reread with
      | some left, some right, some payload => some (node nodeType left right payload)
      | _, _, _ => none

/-- How deep the JSON text of a portable form nests. -/
def levels : PortableTree → Nat
  | absent => 0
  | node _ left right _ => max 1 (max left.levels right.levels) + 1

theorem ofDocument?_node (levels : Nat) (nodeType : String) (left right : PortableTree)
    (payload : Payload) :
    ofDocument? (levels + 1) (node nodeType left right payload).document =
      ofParts? (ofDocument? levels) levels (.string (unitsOf nodeType)) left.document
        right.document payload.document := by
  simp [document, ofDocument?, Slot.find, Slot.child?]

theorem ofDocument?_document (levels : Nat) (p : PortableTree) :
    ofDocument? levels p.document = if p.levels ≤ levels then p.reread else none := by
  induction p generalizing levels with
  | absent => cases levels <;> rfl
  | node nodeType left right payload ihleft ihright =>
      cases levels with
      | zero => rfl
      | succ levels =>
          have hpayload : Payload.ofDocument? levels payload.document =
              if 1 ≤ levels then payload.reread else none := by
            cases levels with
            | zero => exact payload.ofDocument?_zero
            | succ levels =>
                rw [if_pos (Nat.le_add_left 1 levels), payload.ofDocument?_document]
          have hlevels : (node nodeType left right payload).levels ≤ levels + 1 ↔
              1 ≤ levels ∧ left.levels ≤ levels ∧ right.levels ≤ levels := by
            rw [PortableTree.levels, Nat.succ_le_succ_iff, Nat.max_le, Nat.max_le]
          rw [ofDocument?_node, ofParts?, Document.text?_string_unitsOf, ihleft, ihright,
            hpayload, reread]
          simp only [hlevels]
          by_cases hone : 1 ≤ levels
          · by_cases hleft : left.levels ≤ levels
            · by_cases hright : right.levels ≤ levels
              · simp only [hone, hleft, hright, and_self, if_true]
                cases left.reread <;> cases right.reread <;> cases payload.reread <;> rfl
              · simp [hright]
            · simp [hleft]
          · simp [hone]

/-- The tokens of a portable form can be written. -/
theorem isWritable_tokens (p : PortableTree) : ∀ t ∈ p.document.tokens, t.IsWritable := by
  induction p with
  | absent =>
      intro t ht
      obtain rfl := List.mem_singleton.1 ht
      trivial
  | node nodeType left right payload ihleft ihright =>
      refine Document.isWritable_object ?_
      intro m hm
      simp only [List.mem_cons, List.not_mem_nil, or_false] at hm
      rcases hm with rfl | rfl | rfl | rfl
      · exact Member.isWritable_unitsOf _ (Document.isWritable_string nodeType)
      · exact Member.isWritable_unitsOf _ ihleft
      · exact Member.isWritable_unitsOf _ ihright
      · exact Member.isWritable_unitsOf _ payload.isWritable_tokens

theorem parse?_json (p : PortableTree) :
    Document.parse? p.json.toList = some p.document := by
  rw [json, String.toList_ofList]
  exact (Document.spells_text p.isWritable_tokens).parse?

theorem isBlankText_json (p : PortableTree) : Text.isBlankText p.json = false := by
  have hbrace : Text.isBlank '{' = false := by decide
  rw [Text.isBlankText, json, String.toList_ofList]
  cases p with
  | absent => decide
  | node nodeType left right payload =>
      obtain ⟨rest, htext⟩ : ∃ rest, (node nodeType left right payload).document.text =
          '{' :: rest := ⟨_, rfl⟩
      rw [htext, List.all_cons, hbrace, Bool.false_and]

/-- The JSON text of a portable form is read if it does not nest too deep and all values
can be read back. -/
theorem ofJson_json (p : PortableTree) :
    ofJson p.json =
      match if p.levels ≤ maxNesting then p.reread else none with
      | some p' => .ok p'
      | none => .error (.faultyData .unreadable) := by
  rw [ofJson, isBlankText_json, parse?_json, Option.bind_some, ofDocument?_document]
  rfl

theorem ofJson_json_of_reread {p : PortableTree} (hlevels : p.levels ≤ maxNesting)
    (hreread : p.reread = some p) : ofJson p.json = .ok p := by
  rw [ofJson_json, if_pos hlevels, hreread]

end PortableTree

end Rulebook
