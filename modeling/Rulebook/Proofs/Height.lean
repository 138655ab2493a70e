import Rulebook.Proofs.Persistence
import Rulebook.Proofs.Portable.Height

/-!
# The height of accepted rules

Rules of texts are no higher than the limit, but nothing checks the height of what is read
from JSON, which is bounded by the nesting that is read alone.  A rule that is found under a
name is no higher than the limit unless a form of its height has been stored there
(`Process.height_of_accepted`).
-/

namespace Rulebook

theorem Engine.exists_text_of_load {engine : Engine} {name : String} {root : Option Tree}
    (h : engine.load name = .ok root) :
    ∃ text, engine.store.texts.get? name = some text := by
  rw [load, Store.load] at h
  cases htext : engine.store.texts.get? name with
  | none =>
      rw [htext] at h
      cases h
  | some text => exact ⟨text, rfl⟩

/-! ## Where bindings come from -/

/-- A name is bound by a call that creates a rule or stores a form. -/
theorem Call.binding?_cases {call : Call} {i : Nat} {outcome : Outcome} {name text : String}
    (h : call.binding? i outcome = some (name, text)) :
    (∃ rule tree, call = .create i name rule ∧ outcome = .tree (.ok tree) ∧
      text = tree.portable.json) ∨
    ∃ form, call = .ask i (.put name form) ∧ text = form.json := by
  rw [binding?] at h
  split at h
  next hengine =>
    unfold bound? at h
    split at h
    next =>
      cases h
      cases hengine
      exact .inl ⟨_, _, rfl, rfl, rfl⟩
    next =>
      cases h
      cases hengine
      exact .inr ⟨_, rfl, rfl⟩
    next => cases h
  next => cases h

namespace Process

/-- A name is bound to the text of a form that is no deeper than the forms of rules from
texts, or that a call has stored. -/
theorem exists_form_of_mem_bindings {p : Process} (hc : p.cache.Sound) {i : Nat}
    {calls : List Call} {name text : String} (h : (name, text) ∈ p.bindings i calls) :
    ∃ form : PortableTree, text = form.json ∧
      (form.levels ≤ maxDepth + 1 ∨ .ask i (.put name form) ∈ calls) := by
  induction calls generalizing p with
  | nil => cases h
  | cons call rest ih =>
      rcases List.mem_append.1 h with hstep | hrest
      · rcases Call.binding?_cases (Option.mem_toList.1 hstep) with
          ⟨rule, tree, rfl, houtcome, rfl⟩ | ⟨form, rfl, rfl⟩
        · refine ⟨tree.portable, rfl, .inl ?_⟩
          rw [tree.levels_portable]
          exact Nat.succ_le_succ (Tree.depth_of_parse (parse_of_create hc houtcome))
        · exact ⟨form, rfl, .inr (.head _)⟩
      · obtain ⟨form, htext, hform⟩ := ih (step_plain hc call).2.2 hrest
        exact ⟨form, htext, hform.imp_right (.tail _)⟩

/-- What is found under a name is the rule of a text that the name is bound to. -/
theorem exists_text_of_loaded {calls : List Call} {i : Nat} {name : String} {tree : Tree}
    (h : ((start.after calls).step (.ask i (.load name))).1 = .loaded (.ok (some tree))) :
    ∃ text, (name, text) ∈ start.bindings i calls ∧ Tree.ofJson text = .ok (some tree) := by
  rw [step] at h
  split at h
  next => cases h
  next engine hi =>
    have hload : engine.load name = .ok (some tree) := Outcome.loaded.inj h
    obtain ⟨text, htext⟩ := Engine.exists_text_of_load hload
    refine ⟨text, ((holds_after hi).get?_eq_some_iff name text).1 htext, ?_⟩
    rw [← Engine.load_of_get? htext, hload]

/-- A rule from a JSON text is lower than the nesting that is read, and than that of the text.
Every rule that is lower than the nesting that is read is read back, if its fields have names
and its numbers are read back.  A rule that is found under a name is lower too, and it is no
higher than the limit unless a form of its height has been stored under the name. -/
theorem height_of_accepted (calls : List Call) :
    (∀ text tree, Tree.ofJson text = .ok (some tree) → tree.depth < Json.maxNesting ∧
      ∃ d, Json.Document.parse? text.toList = some d ∧ tree.depth < d.nesting) ∧
    (∀ tree : Tree, (∀ field ∈ tree.fields, field ≠ "") →
      (∀ x, .float x ∈ tree.literals → x.ReadsBack) → tree.depth < Json.maxNesting →
      Tree.ofJson (Tree.toJson (some tree)) = .ok (some tree)) ∧
    (∀ (engine : Engine) (name : String) (tree : Tree), engine.load name = .ok (some tree) →
      tree.depth < Json.maxNesting) ∧
    ∀ i name tree, ((start.after calls).step (.ask i (.load name))).1 =
        .loaded (.ok (some tree)) →
      tree.depth ≤ maxDepth ∨
        ∃ form : PortableTree, .ask i (.put name form) ∈ calls ∧
          form.levels = tree.depth + 1 := by
  refine ⟨fun _ _ => Tree.depth_of_ofJson, fun _ => Tree.ofJson_json_eq_self, ?_, ?_⟩
  · intro engine name tree hload
    obtain ⟨text, htext⟩ := Engine.exists_text_of_load hload
    rw [Engine.load_of_get? htext] at hload
    exact (Tree.depth_of_ofJson hload).1
  · intro i name tree hloaded
    obtain ⟨text, hbound, hread⟩ := exists_text_of_loaded hloaded
    obtain ⟨form, rfl, hform⟩ := exists_form_of_mem_bindings (.of_empty rfl) hbound
    have hlevels := Tree.levels_of_ofJson_json hread
    rcases hform with hlow | hput
    · left
      rw [hlevels] at hlow
      exact Nat.le_of_succ_le_succ hlow
    · exact .inr ⟨form, hput, hlevels⟩

/-- A chain of 101 conditions is higher than the limit, and still is read from JSON and found
under its name. -/
theorem accepts_higher :
    let leaf : Tree := .leaf ⟨"a", .greater, .int 1⟩
    let chain : Tree := (List.replicate 100 leaf).foldl (.operator .and) leaf
    maxDepth < chain.depth ∧ Tree.ofJson (Tree.toJson (some chain)) = .ok (some chain) ∧
      ((start.after [.newEngine {}, .ask 0 (.put "r" chain.portable)]).step
        (.ask 0 (.load "r"))).1 = .loaded (.ok (some chain)) := by
  intro leaf chain
  have hread : Tree.ofJson chain.portable.json = .ok (some chain) := by
    have hfields : ∀ field ∈ chain.fields, field ≠ "" := by decide +kernel
    have hliterals : ∀ v ∈ chain.literals, v = .int 1 := by decide +kernel
    have hdepth : chain.depth < Json.maxNesting := by decide +kernel
    refine Tree.ofJson_json_eq_self hfields ?_ hdepth
    exact fun x hx => nomatch hliterals _ hx
  refine ⟨by decide +kernel, hread, ?_⟩
  let engine : Engine := ⟨{}, ⟨Table.empty.insert "r" chain.portable.json⟩⟩
  have htext : engine.store.texts.get? "r" = some chain.portable.json := by
    rw [Table.get?_insert, if_pos rfl]
  show Outcome.loaded (engine.load "r") = _
  rw [Engine.load_of_get? htext, hread]

end Process

end Rulebook
