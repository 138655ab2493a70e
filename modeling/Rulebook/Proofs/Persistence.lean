import Rulebook.Proofs.Portable.Tree
import Rulebook.Proofs.Rule.Acceptance
import Rulebook.Proofs.WriteOnce

/-!
# What becomes of created rules

A rule that has been created stays under its name, whatever is called afterwards.  What is
found there is the rule as it is read back from its JSON text (`Process.ask_created`).  So
it is the rule that was created exactly if its floating-point numbers are read back as they
are (`Process.created_is_kept_iff`).
-/

namespace Rulebook

theorem ne_empty_of_isFieldName {field : String} (h : isFieldName field = true) :
    field ≠ "" := by
  rintro rfl
  cases h

/-- The rule found under a name that is bound to a text. -/
theorem Engine.load_of_get? {engine : Engine} {name text : String}
    (h : engine.store.texts.get? name = some text) : engine.load name = Tree.ofJson text := by
  rw [load, Store.load_of_get? h, Tree.ofJson]
  cases PortableTree.ofJson text <;> rfl

/-- What is found under the name of a rule that has been created. -/
theorem Engine.load_created {engine : Engine} {name text : String} {tree : Tree}
    (hparse : Tree.parse text = .ok tree)
    (h : engine.store.texts.get? name = some tree.portable.json) :
    engine.load name = tree.found := by
  have hdepth : tree.depth < Json.maxNesting :=
    Nat.lt_of_le_of_lt (Tree.depth_of_parse hparse) (by decide)
  have hfields : ∀ field ∈ tree.fields, field ≠ "" := fun field hfield =>
    ne_empty_of_isFieldName (Tree.isFieldName_of_parse hparse field hfield)
  rw [load_of_get? h, Tree.ofJson_json hfields, if_pos hdepth]

namespace Process

theorem parse_of_create {p : Process} (hc : p.cache.Sound) {i : Nat} {name text : String}
    {tree : Tree} (h : (p.step (.create i name text)).1 = .tree (.ok tree)) :
    Tree.parse text = .ok tree := by
  rw [(step_plain hc _).1, Call.plain] at h
  split at h
  next => cases h
  next => exact (Engine.plainCreate_eq_ok_iff.1 (Outcome.tree.inj h)).1

/-- After a rule has been created and any further calls have been made, what is found
under its name is the rule as it is read back from its JSON text. -/
theorem ask_created (before : List Call) {i : Nat} {name text : String} {tree : Tree}
    (h : ((start.after before).step (.create i name text)).1 = .tree (.ok tree))
    (further : List Call) :
    let p := ((start.after before).step (.create i name text)).2.after further
    (p.step (.ask i (.load name))).1 = .loaded tree.found ∧
      ∀ record, (p.step (.ask i (.evaluate name record))).1 =
        .verdict (tree.found.bind fun root => evaluate root record) := by
  intro p
  have hc : (start.after before).cache.Sound := sound_after (.of_empty rfl) before
  obtain ⟨engine, hi, hget⟩ := get?_of_create h further
  have hload : engine.load name = tree.found := Engine.load_created (parse_of_create hc h) hget
  constructor
  · rw [step, hi]
    exact congrArg Outcome.loaded hload
  · intro record
    have hevaluate : engine.evaluate name record =
        tree.found.bind fun root => evaluate root record := by
      rw [Engine.evaluate, hload]
      cases tree.found <;> rfl
    rw [step, hi]
    exact congrArg Outcome.verdict hevaluate

/-- After a rule has been created and any further calls have been made, the rule found under
its name is the one that was created and has its results, exactly if each of its
floating-point numbers is read from the numeral that JSON texts have for it. -/
theorem created_is_kept_iff (before : List Call) {i : Nat} {name text : String} {tree : Tree}
    (h : ((start.after before).step (.create i name text)).1 = .tree (.ok tree))
    (further : List Call) :
    let p := ((start.after before).step (.create i name text)).2.after further
    ((p.step (.ask i (.load name))).1 = .loaded (.ok (some tree)) ∧
      ∀ record, (p.step (.ask i (.evaluate name record))).1 =
        .verdict (tree.evaluate record)) ↔
      ∀ x, .float x ∈ tree.literals → x.ReadsBack := by
  intro p
  obtain ⟨hload, hevaluate⟩ := ask_created before h further
  rw [← Tree.reread_eq_self_iff, ← Tree.found_eq_ok_some_iff]
  constructor
  · rintro ⟨hkept, -⟩
    exact Outcome.loaded.inj (hload.symm.trans hkept)
  · intro hfound
    rw [hfound] at hload hevaluate
    exact ⟨hload, hevaluate⟩

/-- A number with few digits is kept. -/
theorem created_is_kept_short :
    let tree : Tree := .leaf ⟨"a", .equal, .float (.ofBits 0x4004000000000000)⟩
    let created := (start.after [.newEngine {}]).step (.create 0 "r" "a = 2.5")
    let p := created.2.after [.clear]
    created.1 = .tree (.ok tree) ∧
      (p.step (.ask 0 (.load "r"))).1 = .loaded (.ok (some tree)) ∧
      ∀ record, (p.step (.ask 0 (.evaluate "r" record))).1 =
        .verdict (tree.evaluate record) := by
  intro tree created p
  have h : created.1 = .tree (.ok tree) := by decide +kernel
  refine ⟨h, (created_is_kept_iff [.newEngine {}] h [.clear]).2 ?_⟩
  intro x hx
  obtain rfl : x = .ofBits 0x4004000000000000 := Value.float.inj (List.mem_singleton.1 hx)
  decide +kernel

/-- A number with seventeen digits is not kept: the rule that was created holds of the record
with this number, and the rule found under its name does not. -/
theorem created_is_changed_long :
    let x : Binary64 := .ofBits 0x3FFCC359E067A348
    let tree : Tree := .leaf ⟨"a", .equal, .float x⟩
    let record : Record := Table.empty.insert "a" (.float x)
    let created := (start.after [.newEngine {}]).step (.create 0 "r" "a = 1.7976931348623157")
    created.1 = .tree (.ok tree) ∧ tree.evaluate record = .ok true ∧
      (created.2.step (.ask 0 (.evaluate "r" record))).1 = .verdict (.ok false) := by
  decide +kernel

end Process

end Rulebook
