import Rulebook.Proofs.Json.Nesting
import Rulebook.Proofs.Portable.Fault

/-!
# The height of rules from JSON

A portable form nests no deeper than the document that it is read from, and no deeper than
is read (`PortableTree.levels_of_ofDocument?`).  So a rule from a JSON text is lower than the
text nests deep (`Tree.depth_of_ofJson`).  No other limit applies
(`Tree.ofJson_json_eq_self`).
-/

namespace Rulebook

open Json

/-- What is read as a payload is an object. -/
theorem Payload.nesting_of_ofDocument? {levels : Nat} {d : Document} {payload : Payload}
    (h : ofDocument? levels d = some payload) : 1 ≤ levels ∧ 1 ≤ d.nesting := by
  unfold ofDocument? at h
  split at h
  next hreadable =>
    split at h
    next members =>
      refine ⟨?_, Nat.le_add_left _ _⟩
      cases levels with
      | zero => cases hreadable
      | succ levels => exact Nat.le_add_left _ _
    next => cases h
  next => cases h

namespace PortableTree

/-- The parts of a node that is read. -/
theorem ofParts?_eq_some_iff {read : Document → Option PortableTree} {levels : Nat}
    {nodeType left right payload : Document} {p : PortableTree} :
    ofParts? read levels nodeType left right payload = some p ↔
      ∃ t l r value, nodeType.text? = some t ∧ read left = some l ∧ read right = some r ∧
        Payload.ofDocument? levels payload = some value ∧ p = node t l r value := by
  rw [ofParts?]
  constructor
  · intro h
    split at h
    next t l r value ht hl hr hvalue =>
      cases h
      exact ⟨t, l, r, value, ht, hl, hr, hvalue, rfl⟩
    next => cases h
  · rintro ⟨t, l, r, value, ht, hl, hr, hvalue, rfl⟩
    rw [ht, hl, hr, hvalue]

/-- What is read is no node, or one that is read from parts, which nest less deep. -/
theorem ofDocument?_cases {levels : Nat} {d : Document} {p : PortableTree}
    (h : ofDocument? levels d = some p) :
    p = absent ∨ ∃ n nodeType left right payload, levels = n + 1 ∧
      ofParts? (ofDocument? n) n nodeType left right payload = some p ∧
      left.nesting < d.nesting ∧ right.nesting < d.nesting ∧ payload.nesting < d.nesting := by
  unfold ofDocument? at h
  split at h
  next =>
    cases h
    exact .inl rfl
  next n nodeType left right payload =>
    have hmem {item : Document} (hitem : item ∈ [nodeType, left, right, payload]) :
        item.nesting < (Document.array [nodeType, left, right, payload]).nesting :=
      Document.nesting_lt_of_mem_items hitem
    exact .inr ⟨n, _, _, _, _, rfl, h, hmem (by simp), hmem (by simp), hmem (by simp)⟩
  next n members =>
    obtain ⟨named, hnamed, h⟩ := Option.bind_eq_some_iff.1 h
    split at h
    next hpayload =>
      split at h
      next hleft hright =>
        exact .inr ⟨n, _, _, _, _, rfl, h, Slot.nesting_lt_of_child? hnamed hleft,
          Slot.nesting_lt_of_child? hnamed hright, Slot.nesting_lt_of_find hnamed hpayload⟩
      next => cases h
    next => cases h
  next => cases h

/-- A form nests no deeper than is read, and no deeper than what it is read from. -/
theorem levels_of_ofDocument? {levels : Nat} {d : Document} {p : PortableTree}
    (h : ofDocument? levels d = some p) : p.levels ≤ levels ∧ p.levels ≤ d.nesting := by
  induction p generalizing levels d with
  | absent => exact ⟨Nat.zero_le _, Nat.zero_le _⟩
  | node nodeType left right payload ihleft ihright =>
      rcases ofDocument?_cases h with hp | ⟨n, _, dl, dr, dv, rfl, hparts, hdl, hdr, hdv⟩
      · cases hp
      · obtain ⟨_, l, r, value, -, hl, hr, hvalue, hp⟩ := ofParts?_eq_some_iff.1 hparts
        cases hp
        obtain ⟨hl, hl'⟩ := ihleft hl
        obtain ⟨hr, hr'⟩ := ihright hr
        obtain ⟨hv, hv'⟩ := Payload.nesting_of_ofDocument? hvalue
        rw [PortableTree.levels]
        omega

/-- A form that is read back nests as deep as the form that was written. -/
theorem levels_of_reread {p p' : PortableTree} (h : p.reread = some p') :
    p'.levels = p.levels := by
  induction p generalizing p' with
  | absent =>
      cases h
      rfl
  | node nodeType left right payload ihleft ihright =>
      rw [reread] at h
      split at h
      next hleft hright _ =>
        cases h
        rw [PortableTree.levels, PortableTree.levels, ihleft hleft, ihright hright]
      next => cases h

/-- What is read from a JSON text is no node, or what its document holds. -/
theorem ofJson_cases {text : String} {p : PortableTree} (h : ofJson text = .ok p) :
    p = absent ∨ ∃ d, Document.parse? text.toList = some d ∧
      ofDocument? maxNesting d = some p := by
  rw [ofJson] at h
  split at h
  next =>
    cases h
    exact .inl rfl
  next =>
    split at h
    next hread =>
      cases h
      exact .inr (Option.bind_eq_some_iff.1 hread)
    next => cases h

end PortableTree

namespace Tree

/-- The form of a rule nests deeper than the rule is high, by one level. -/
theorem levels_of_toTree {p : PortableTree} {tree : Tree} (h : p.toTree = .ok (some tree)) :
    p.levels = tree.depth + 1 := by
  obtain ⟨rfl, -⟩ := PortableTree.eq_ofTree_of_toTree h
  exact tree.levels_portable

/-- A rule from a JSON text is lower than the nesting that is read, and than that of the
text. -/
theorem depth_of_ofJson {text : String} {tree : Tree}
    (h : Tree.ofJson text = .ok (some tree)) :
    tree.depth < maxNesting ∧
      ∃ d, Document.parse? text.toList = some d ∧ tree.depth < d.nesting := by
  rw [ofJson] at h
  split at h
  next p hp =>
    have hlevels := levels_of_toTree h
    rcases PortableTree.ofJson_cases hp with rfl | ⟨d, hparse, hread⟩
    · cases h
    · obtain ⟨hmax, hnesting⟩ := PortableTree.levels_of_ofDocument? hread
      rw [hlevels] at hmax hnesting
      exact ⟨hmax, d, hparse, hnesting⟩
  next => cases h

/-- The rule that is read back where a form was written is lower than the form nests deep, by
one level. -/
theorem levels_of_ofJson_json {p : PortableTree} {tree : Tree}
    (h : Tree.ofJson p.json = .ok (some tree)) : p.levels = tree.depth + 1 := by
  rw [ofJson, PortableTree.ofJson_json] at h
  by_cases hlevels : p.levels ≤ maxNesting
  · rw [if_pos hlevels] at h
    cases hreread : p.reread with
    | none =>
        rw [hreread] at h
        cases h
    | some p' =>
        rw [hreread] at h
        rw [← PortableTree.levels_of_reread hreread, levels_of_toTree h]
  · rw [if_neg hlevels] at h
    cases h

/-- A rule that is lower than the nesting that is read is read back, if its fields have names
and its numbers are read back. -/
theorem ofJson_json_eq_self {tree : Tree} (hfields : ∀ field ∈ tree.fields, field ≠ "")
    (hfloats : ∀ x, .float x ∈ tree.literals → x.ReadsBack) (hdepth : tree.depth < maxNesting) :
    Tree.ofJson tree.portable.json = .ok (some tree) := by
  rw [ofJson_json hfields, if_pos hdepth, found_eq_ok_some_iff, reread_eq_self_iff]
  exact hfloats

end Tree

end Rulebook
