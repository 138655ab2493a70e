import Rulebook.Engine
import Rulebook.Proofs.Combination.Sequence
import Rulebook.Proofs.Portable.Fault
import Rulebook.Proofs.Store

/-!
# What rules depend on

A rule depends on its fields alone: records that agree on them give the same result
(`Tree.evaluate_congr`), and only they can be missing (`Tree.mem_of_missingField`).  So the
fields that an engine gives for a name are all that the result under this name depends on,
and where it gives none for a fault, every evaluation ends in the same fault
(`Engine.fields_are_dependencies`).
-/

namespace Rulebook

/-! ## Conditions -/

namespace Condition

variable {c : Condition} {record other : Record}

theorem evaluate_congr (h : record.get? c.field = other.get? c.field) :
    c.evaluate record = c.evaluate other := by
  rw [evaluate, evaluate, h]

/-- A test misses no field. -/
theorem test_ne_missingField (value : Value) (field : String) :
    c.test value ≠ .error (.missingField field) := by
  intro h
  rw [test] at h
  split at h <;> cases h

theorem eq_of_missingField {field : String}
    (h : c.evaluate record = .error (.missingField field)) :
    field = c.field ∧ record.get? field = none := by
  rw [evaluate] at h
  split at h
  next hnone =>
    cases h
    exact ⟨rfl, hnone⟩
  next value _ => exact absurd h (test_ne_missingField value field)

end Condition

/-! ## Rules -/

namespace Tree

variable {record other : Record}

/-- Records that agree on the fields of a rule give the same result. -/
theorem evaluate_congr {tree : Tree}
    (h : ∀ field ∈ tree.fields, record.get? field = other.get? field) :
    tree.evaluate record = tree.evaluate other := by
  induction tree with
  | leaf c => exact Condition.evaluate_congr (h _ (.head _))
  | operator op left right ihleft ihright =>
      obtain ⟨hleft, hright⟩ := List.forall_mem_append.1 h
      rw [evaluate_operator, evaluate_operator, ihleft hleft, ihright hright]

/-- A field that is missed is one of the rule, and not in the record. -/
theorem mem_of_missingField {tree : Tree} {field : String}
    (h : tree.evaluate record = .error (.missingField field)) :
    field ∈ tree.fields ∧ record.get? field = none := by
  induction tree with
  | leaf c =>
      obtain ⟨rfl, hnone⟩ := Condition.eq_of_missingField h
      exact ⟨.head _, hnone⟩
  | operator op left right ihleft ihright =>
      rw [evaluate_operator] at h
      split at h
      next =>
        obtain ⟨hmem, hnone⟩ := ihright h
        exact ⟨List.mem_append_right _ hmem, hnone⟩
      next =>
        obtain ⟨hmem, hnone⟩ := ihleft h
        exact ⟨List.mem_append_left _ hmem, hnone⟩

end Tree

section Optional

variable {root : Option Tree} {record other : Record}

theorem evaluate_congr (h : ∀ field ∈ fieldsOf root, record.get? field = other.get? field) :
    evaluate root record = evaluate root other := by
  cases root with
  | none => rfl
  | some tree => exact Tree.evaluate_congr h

theorem mem_of_missingField {field : String}
    (h : evaluate root record = .error (.missingField field)) :
    field ∈ fieldsOf root ∧ record.get? field = none := by
  cases root with
  | none => cases h
  | some tree => exact Tree.mem_of_missingField h

end Optional

/-! ## Rules under names -/

namespace Engine

theorem fields_eq_ok_iff {engine : Engine} {name : String} {fields : List String} :
    engine.fields name = .ok fields ↔
      ∃ root, engine.load name = .ok root ∧ fieldsOf root = fields := by
  rw [Engine.fields]
  cases engine.load name <;> simp [Except.map]

/-- The fields are not given exactly for the faults for which the rule is not. -/
theorem fields_eq_error_iff {engine : Engine} {name : String} {e : Error} :
    engine.fields name = .error e ↔ engine.load name = .error e := by
  rw [Engine.fields]
  cases engine.load name <;> simp [Except.map]

/-- A rule is not found where no form is, or where one is whose nodes are at fault. -/
theorem load_eq_error_iff {engine : Engine} {name : String} {e : Error} :
    engine.load name = .error e ↔ engine.store.load name = .error e ∨
      ∃ p, engine.store.load name = .ok p ∧ p.firstFault? = some e := by
  rw [load]
  cases engine.store.load name with
  | error e' => simp
  | ok p => simp [PortableTree.toTree_eq_error_iff]

/-- Where an engine gives fields for a name, records that agree on them give the same result
under the name, and a field that is missed is one of them and not in the record.  Where it
is at fault instead, the result on every record is the same fault.  It is at fault for every
form with a node at fault, wherever the node stands. -/
theorem fields_are_dependencies (engine : Engine) (name : String) :
    (∀ fields, engine.fields name = .ok fields →
      (∀ record other : Record, (∀ field ∈ fields, record.get? field = other.get? field) →
        engine.evaluate name record = engine.evaluate name other) ∧
      ∀ record field, engine.evaluate name record = .error (.missingField field) →
        field ∈ fields ∧ record.get? field = none) ∧
    (∀ e, engine.fields name = .error e → ∀ record, engine.evaluate name record = .error e) ∧
    ∀ p q, engine.store.load name = .ok p → q ∈ p.nodes → q.fault? ≠ none →
      ∃ e, engine.fields name = .error e ∧ p.firstFault? = some e := by
  refine ⟨?_, ?_, ?_⟩
  · intro fields hfields
    obtain ⟨root, hload, rfl⟩ := fields_eq_ok_iff.1 hfields
    simp only [evaluate, hload]
    exact ⟨fun _ _ => evaluate_congr, fun _ _ => mem_of_missingField⟩
  · intro e he record
    rw [evaluate, fields_eq_error_iff.1 he]
  · intro p q hp hq hfault
    obtain ⟨e, he⟩ := PortableTree.exists_firstFault? hq hfault
    exact ⟨e, fields_eq_error_iff.2 (load_eq_error_iff.2 (.inr ⟨p, hp, he⟩)), he⟩

/-- A rule, and a form with a comparator that does not exist on the side that is passed over
wherever the other one holds. -/
theorem fields_are_dependencies_or :
    let left : Tree := .leaf ⟨"a", .equal, .int 1⟩
    let rule : Tree := .operator .or left (.leaf ⟨"b", .equal, .int 2⟩)
    let faulty : PortableTree := .node operandType .absent .absent (.condition "b" ">=" (.int 2))
    let form : PortableTree := .node operatorType left.portable faulty (.operator "OR")
    let engine : Engine :=
      ⟨{}, ⟨(Table.empty.insert "r" rule.portable.json).insert "s" form.json⟩⟩
    engine.fields "r" = .ok ["a", "b"] ∧
      (∀ record other : Record, record.get? "a" = other.get? "a" →
        record.get? "b" = other.get? "b" →
        engine.evaluate "r" record = engine.evaluate "r" other) ∧
      engine.fields "s" = .error (.unsupportedComparator ">=") ∧
      ∀ record, engine.evaluate "s" record = .error (.unsupportedComparator ">=") := by
  intro left rule faulty form engine
  have hr : engine.store.load "r" = .ok rule.portable := by
    have htext : engine.store.texts.get? "r" = some rule.portable.json := by
      simp only [engine, Table.get?_insert, if_pos, String.reduceEq, if_false]
    rw [Store.load_of_get? htext]
    exact PortableTree.ofJson_json_of_reread (by decide) rfl
  have hs : engine.store.load "s" = .ok form := by
    have htext : engine.store.texts.get? "s" = some form.json := by
      rw [Table.get?_insert, if_pos rfl]
    rw [Store.load_of_get? htext]
    exact PortableTree.ofJson_json_of_reread (by decide) rfl
  have hfields : engine.fields "r" = .ok ["a", "b"] :=
    fields_eq_ok_iff.2 ⟨some rule, by rw [load, hr]; rfl, rfl⟩
  obtain ⟨e, he, hfirst⟩ := (fields_are_dependencies engine "s").2.2 form faulty hs
    (.tail _ (.tail _ (.head _))) (by decide)
  obtain rfl : .unsupportedComparator ">=" = e := Option.some.inj hfirst
  refine ⟨hfields, ?_, he, (fields_are_dependencies engine "s").2.1 _ he⟩
  intro record other ha hb
  refine ((fields_are_dependencies engine "r").1 _ hfields).1 record other ?_
  simp [ha, hb]

end Engine

end Rulebook
