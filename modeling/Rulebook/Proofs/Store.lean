import Rulebook.Proofs.Text.Class
import Rulebook.Store

/-!
# Stores only grow

Adding a rule binds its name to its text (`Store.get?_of_add`) and leaves all names that
are bound as they are (`Store.Extends.of_add`).  The names of a store are sorted
(`Store.pairwise_names`), and there are as many of them as rules (`Store.length_names`).
-/

namespace Rulebook.Store

/-- Everything that is stored in the first store is stored in the second. -/
def Extends (s s' : Store) : Prop :=
  ∀ name text, s.texts.get? name = some text → s'.texts.get? name = some text

theorem Extends.refl (s : Store) : s.Extends s := fun _ _ h => h

theorem Extends.trans {s s' s'' : Store} (h : s.Extends s') (h' : s'.Extends s'') :
    s.Extends s'' := fun name text ht => h' name text (h name text ht)

/-- A store that takes a rule had nothing under its name, and binds it to the rule. -/
theorem add_eq_ok_iff {s s' : Store} {name : String} {p : PortableTree} :
    s.add name p = .ok s' ↔
      Text.isBlankText name = false ∧ s.texts.get? name = none ∧
        s' = ⟨s.texts.insert name p.json⟩ := by
  rw [add, Table.contains]
  cases Text.isBlankText name with
  | true => simp
  | false =>
      cases s.texts.get? name with
      | some text => simp
      | none =>
          simp only [Bool.false_eq_true, if_false, Option.isSome_none, Except.ok.injEq,
            true_and]
          exact eq_comm

theorem get?_of_add {s s' : Store} {name : String} {p : PortableTree}
    (h : s.add name p = .ok s') : s'.texts.get? name = some p.json := by
  obtain ⟨-, -, rfl⟩ := add_eq_ok_iff.1 h
  rw [Table.get?_insert, if_pos rfl]

theorem Extends.of_add {s s' : Store} {name : String} {p : PortableTree}
    (h : s.add name p = .ok s') : s.Extends s' := by
  obtain ⟨-, hfree, rfl⟩ := add_eq_ok_iff.1 h
  intro other text ht
  have hne : other ≠ name := by
    rintro rfl
    rw [hfree] at ht
    cases ht
  rw [Table.get?_insert, if_neg hne, ht]

/-- Whether a store takes a rule under a name: the name has a character that is no white
space, and nothing is bound to it. -/
def Takes (s : Store) (name : String) : Prop :=
  (∃ c ∈ name.toList, Text.isBlank c = false) ∧ s.texts.get? name = none

theorem takes_iff {s : Store} {name : String} (p : PortableTree) :
    s.Takes name ↔ ∃ s', s.add name p = .ok s' := by
  simp only [Takes, add_eq_ok_iff, Text.isBlankText_eq_false_iff, ← and_assoc,
    exists_and_left, exists_eq, and_true]

/-- A store that does not take a rule is at fault with its name. -/
theorem storage_of_add {s : Store} {name : String} {p : PortableTree} {e : Error}
    (h : s.add name p = .error e) : ∃ fault, e = .storage fault := by
  rw [add] at h
  split at h
  next =>
    cases h
    exact ⟨_, rfl⟩
  next =>
    split at h
    next =>
      cases h
      exact ⟨_, rfl⟩
    next => cases h

theorem entries_of_add {s s' : Store} {name : String} {p : PortableTree}
    (h : s.add name p = .ok s') : s'.texts.entries = (name, p.json) :: s.texts.entries := by
  obtain ⟨-, hfree, rfl⟩ := add_eq_ok_iff.1 h
  exact Table.entries_insert hfree _

/-- What is loaded from under a name that is bound to a text. -/
theorem load_of_get? {s : Store} {name text : String} (h : s.texts.get? name = some text) :
    s.load name = PortableTree.ofJson text := by
  rw [load, h]

/-! ## Names -/

theorem mem_names_iff {s : Store} {name : String} :
    name ∈ s.names ↔ ∃ text, s.texts.get? name = some text := by
  rw [names, List.mem_mergeSort, Table.mem_keys_iff]

theorem length_names (s : Store) : s.names.length = s.size := by
  rw [names, List.length_mergeSort, Table.keys, List.length_map, size, Table.size]

theorem pairwise_names (s : Store) : s.names.Pairwise (· < ·) := by
  have hle : s.names.Pairwise fun a b => decide (a ≤ b) = true := by
    refine List.pairwise_mergeSort ?_ ?_ _
    · intro a b c hab hbc
      exact decide_eq_true (String.le_trans (of_decide_eq_true hab) (of_decide_eq_true hbc))
    · intro a b
      rcases String.le_total a b with h | h <;> simp [h]
  have hnodup : s.names.Nodup := (List.mergeSort_perm _ _).nodup_iff.2 s.texts.nodup
  refine hle.imp₂ ?_ hnodup
  intro a b hab hne
  exact Std.lt_of_le_of_ne (of_decide_eq_true hab) hne

end Rulebook.Store
