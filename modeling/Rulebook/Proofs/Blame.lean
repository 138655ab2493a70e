import Rulebook.Proofs.Dependence

/-!
# Who is to blame for a rule that is not found

An engine that does not find a rule blames the caller only if nothing has the name.  What is
unreadable is the fault of the data (`Store.isClientError_of_load`), and so are the faults of
nodes, except for one: a leaf whose comparator does not exist ends in the error that a caller
gets for such a comparator.  So the caller is blamed for stored data exactly where the first
node at fault is such a leaf (`Engine.blames_data_iff`).
-/

namespace Rulebook

/-! ## Faults of stored forms -/

theorem PortableTree.eq_unreadable_of_ofJson {text : String} {e : Error}
    (h : ofJson text = .error e) : e = .faultyData .unreadable := by
  rw [ofJson] at h
  split at h
  next => cases h
  next =>
    split at h
    next => cases h
    next =>
      cases h
      rfl

/-- A store does not give a form where none has the name, or by the fault of its data. -/
theorem Store.isClientError_of_load {s : Store} {name : String} {e : Error}
    (h : s.load name = .error e) : e = .ruleNotFound name ∨ e.isClientError = false := by
  rw [load] at h
  split at h
  next =>
    cases h
    exact .inl rfl
  next =>
    obtain rfl := PortableTree.eq_unreadable_of_ofJson h
    exact .inr rfl

theorem PortableTree.isClientError_of_firstFault? {p : PortableTree} {e : Error}
    (h : p.firstFault? = some e) :
    e.isClientError = false ∨ ∃ symbol, e = .unsupportedComparator symbol := by
  obtain ⟨q, -, hq⟩ := List.exists_of_findSome?_eq_some h
  exact isClientError_of_fault? hq

/-- The first node at fault is a leaf on a named field, and its comparator does not exist. -/
def PortableTree.FailsAtComparator (p : PortableTree) (symbol : String) : Prop :=
  ∃ before after field literal,
    p.nodes = before ++ node operandType absent absent (.condition field symbol literal) :: after ∧
      (∀ q ∈ before, q.fault? = none) ∧ field ≠ "" ∧ Comparator.ofSymbol? symbol = none

theorem PortableTree.failsAtComparator_iff {p : PortableTree} {symbol : String} :
    p.FailsAtComparator symbol ↔ p.firstFault? = some (.unsupportedComparator symbol) := by
  rw [firstFault?, List.findSome?_eq_some_iff]
  constructor
  · rintro ⟨before, after, field, literal, hnodes, hbefore, hfield, hsymbol⟩
    have hfault := fault?_eq_unsupportedComparator_iff.2 ⟨field, literal, rfl, hfield, hsymbol⟩
    exact ⟨before, _, after, hnodes, hfault, hbefore⟩
  · rintro ⟨before, q, after, hnodes, hfault, hbefore⟩
    obtain ⟨field, literal, rfl, hfield, hsymbol⟩ := fault?_eq_unsupportedComparator_iff.1 hfault
    exact ⟨before, after, field, literal, hnodes, hbefore, hfield, hsymbol⟩

/-! ## Blame -/

namespace Engine

/-- Where an engine does not give the rule or the fields of a name, nothing has the name or
the data is at fault, exactly if the form under the name does not fail at a comparator. -/
theorem blames_data_iff (engine : Engine) (name : String) :
    (∀ e, engine.load name = .error e ∨ engine.fields name = .error e →
      e = .ruleNotFound name ∨ e.isClientError = false) ↔
    ∀ p symbol, engine.store.load name = .ok p → ¬ p.FailsAtComparator symbol := by
  simp only [fields_eq_error_iff, or_self, load_eq_error_iff,
    PortableTree.failsAtComparator_iff]
  constructor
  · intro h p symbol hp hfirst
    rcases h _ (.inr ⟨p, hp, hfirst⟩) with hname | hdata
    · cases hname
    · cases hdata
  · rintro h e (hstore | ⟨p, hp, hfirst⟩)
    · exact Store.isClientError_of_load hstore
    · rcases PortableTree.isClientError_of_firstFault? hfirst with hdata | ⟨symbol, rfl⟩
      · exact .inr hdata
      · exact absurd hfirst (h p symbol hp)

/-- A form with a comparator that does not exist has been stored, and the caller who loads
it is blamed. -/
theorem blames_caller_for_comparator :
    let form : PortableTree := .node operandType .absent .absent (.condition "a" ">=" (.int 1))
    let engine : Engine := ⟨{}, ⟨Table.empty.insert "r" form.json⟩⟩
    let e : Error := .unsupportedComparator ">="
    Store.empty.add "r" form = .ok engine.store ∧ engine.load "r" = .error e ∧
      engine.fields "r" = .error e ∧ e ≠ .ruleNotFound "r" ∧ e.isClientError = true := by
  intro form engine e
  have htext : engine.store.texts.get? "r" = some form.json := by
    rw [Table.get?_insert, if_pos rfl]
  have hload : engine.load "r" = .error e := by
    refine load_eq_error_iff.2 (.inr ⟨form, ?_, rfl⟩)
    rw [Store.load_of_get? htext]
    exact PortableTree.ofJson_json_of_reread (by decide) rfl
  exact ⟨rfl, hload, fields_eq_error_iff.2 hload, nofun, rfl⟩

end Engine

end Rulebook
