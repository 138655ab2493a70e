import Rulebook.Proofs.Process

/-!
# Names are bound once and for all

What a call binds in an engine shows in its outcome (`Call.binding?`).  A call can make an
engine, add one rule to its store, or leave it as it is (`Turns`, `Process.turns_step`).  So
the entries of a store are what all calls before have bound in it, the newest first
(`Process.entriesOf_after`).

As a store takes a name only once, and no call takes anything from a store, each of the
names stays bound to the text that it was bound to first (`Process.names_are_bound_once`).
-/

namespace Rulebook

/-! ## What calls bind -/

/-- The error that a call ends in, if it does. -/
def Outcome.error? : Outcome → Option Error
  | .tree (.error e) | .compiled (.error e) | .verdict (.error e) | .put (.error e)
  | .stored (.error e) | .loaded (.error e) | .fields (.error e) => some e
  | _ => none

/-- The engine that a call is made on. -/
def Call.engine? : Call → Option Nat
  | .create i _ _ => some i
  | .ask i _ => some i
  | _ => none

/-- The name that a call binds, with the text that it binds it to.  Only a rule that is
created or stored binds one. -/
def Call.bound? (call : Call) (outcome : Outcome) : Option (String × String) :=
  match outcome, call with
  | .tree (.ok tree), .create _ name _ => some (name, tree.portable.json)
  | .put (.ok ()), .ask _ (.put name p) => some (name, p.json)
  | _, _ => none

/-- The name that a call binds in an engine. -/
def Call.binding? (i : Nat) (call : Call) (outcome : Outcome) : Option (String × String) :=
  if call.engine? = some i then call.bound? outcome else none

/-- The names that calls bind in an engine, with their texts, in the order of the calls. -/
def Process.bindings (p : Process) (i : Nat) : List Call → List (String × String)
  | [] => []
  | call :: rest =>
      (call.binding? i (p.step call).1).toList ++ (p.step call).2.bindings i rest

namespace Call

theorem binding?_self {call : Call} {i : Nat} (h : call.engine? = some i) (outcome : Outcome) :
    call.binding? i outcome = call.bound? outcome :=
  if_pos h

theorem binding?_of_ne {call : Call} {i j : Nat} (h : call.engine? = some j) (hij : j ≠ i)
    (outcome : Outcome) : call.binding? i outcome = none :=
  if_neg (by simpa [h] using hij)

theorem binding?_of_bound? {call : Call} {outcome : Outcome} (h : call.bound? outcome = none)
    (i : Nat) : call.binding? i outcome = none := by
  rw [binding?, h, ite_self]

/-- A call that fails binds nothing. -/
theorem bound?_of_error {call : Call} {outcome : Outcome} {e : Error}
    (h : outcome.error? = some e) : call.bound? outcome = none := by
  unfold bound?
  split
  next => cases h
  next => cases h
  next => rfl

end Call

/-! ## What a call makes of an engine -/

/-- What a call can make of the engine in some place, where it binds `binding`: nothing
else, a new engine, or one with one more rule. -/
inductive Turns : Option Engine → Option (String × String) → Option Engine → Prop where
  | kept (engine : Option Engine) : Turns engine none engine
  | made (settings : Settings) : Turns none none (some (.fresh settings))
  | bound {engine : Engine} {name : String} {p : PortableTree} {store : Store}
      (h : engine.store.add name p = .ok store) :
      Turns (some engine) (some (name, p.json)) (some { engine with store })

namespace Turns

theorem create (engine : Engine) (c : ParseCache) (i : Nat) (name text : String) :
    Turns (some engine)
      ((Call.create i name text).bound? (.tree (engine.create c name text).1))
      (some (engine.create c name text).2.1) := by
  rw [Engine.create]
  split
  next => exact .kept _
  next =>
    split
    next => exact .kept _
    next hadd => exact .bound hadd

theorem answer (engine : Engine) (i : Nat) (query : Query) :
    Turns (some engine) ((Call.ask i query).bound? (engine.answer query).1)
      (some (engine.answer query).2) := by
  cases query with
  | put name p =>
      rw [Engine.answer]
      split
      next => exact .kept _
      next hadd => exact .bound hadd
  | _ => exact .kept _

/-- A call on one engine leaves those in other places as they are. -/
theorem set {engines : List Engine} {j : Nat} {engine new : Engine} {call : Call}
    {outcome : Outcome} (hcall : call.engine? = some j) (hj : engines[j]? = some engine)
    (h : Turns (some engine) (call.bound? outcome) (some new)) (i : Nat) :
    Turns engines[i]? (call.binding? i outcome) (engines.set j new)[i]? := by
  by_cases hij : j = i
  · subst hij
    have hlt := (List.getElem?_eq_some_iff.1 hj).1
    rwa [hj, List.getElem?_set_self hlt, Call.binding?_self hcall]
  · rw [List.getElem?_set_ne hij, Call.binding?_of_ne hcall hij]
    exact .kept _

end Turns

/-- What one call makes of the engine in any place. -/
theorem Process.turns_step (p : Process) (call : Call) (i : Nat) :
    Turns p.engines[i]? (call.binding? i (p.step call).1) (p.step call).2.engines[i]? := by
  cases call with
  | newEngine settings =>
      show Turns p.engines[i]? none (p.engines ++ [Engine.fresh settings])[i]?
      rcases Nat.lt_trichotomy i p.engines.length with hi | rfl | hi
      · rw [List.getElem?_append_left hi]
        exact .kept _
      · rw [List.getElem?_concat_length, List.getElem?_eq_none (Nat.le_refl _)]
        exact .made settings
      · have hlength : (p.engines ++ [Engine.fresh settings]).length ≤ i := by
          rwa [List.length_append]
        rw [List.getElem?_eq_none hlength, List.getElem?_eq_none (Nat.le_of_lt hi)]
        exact .kept none
  | create j name text =>
      rw [step]
      split
      next =>
        rw [Call.binding?_of_bound? rfl]
        exact .kept _
      next engine hj => exact .set rfl hj (.create engine p.cache j name text) i
  | ask j query =>
      rw [step]
      split
      next =>
        rw [Call.binding?_of_bound? rfl]
        exact .kept _
      next engine hj => exact .set rfl hj (.answer engine j query) i
  | _ => exact .kept _

/-! ## Stores only grow -/

namespace Turns

theorem store_extends {engine : Engine} {binding : Option (String × String)} {after : Option Engine}
    (h : Turns (some engine) binding after) :
    ∃ engine', after = some engine' ∧ engine.store.Extends engine'.store := by
  cases h with
  | kept => exact ⟨engine, rfl, .refl _⟩
  | bound hadd => exact ⟨_, rfl, .of_add hadd⟩

theorem get?_eq_some {before after : Option Engine} {name text : String}
    (h : Turns before (some (name, text)) after) :
    ∃ engine, after = some engine ∧ engine.store.texts.get? name = some text := by
  cases h with
  | bound hadd => exact ⟨_, rfl, Store.get?_of_add hadd⟩

end Turns

namespace Process

/-- A call keeps every engine, and takes nothing from its store. -/
theorem extends_step {p : Process} (call : Call) {i : Nat} {engine : Engine}
    (h : p.engines[i]? = some engine) :
    ∃ engine', (p.step call).2.engines[i]? = some engine' ∧
      engine.store.Extends engine'.store := by
  have hturns := p.turns_step call i
  rw [h] at hturns
  exact hturns.store_extends

/-- Calls keep every engine, and take nothing from its store. -/
theorem extends_after (calls : List Call) {p : Process} {i : Nat} {engine : Engine}
    (h : p.engines[i]? = some engine) :
    ∃ engine', (p.after calls).engines[i]? = some engine' ∧
      engine.store.Extends engine'.store := by
  induction calls generalizing p engine with
  | nil => exact ⟨engine, h, .refl _⟩
  | cons call rest ih =>
      obtain ⟨between, hbetween, hstep⟩ := extends_step call h
      obtain ⟨engine', hafter, hrest⟩ := ih hbetween
      exact ⟨engine', hafter, hstep.trans hrest⟩

/-- After a call has bound a name in an engine and any further calls have been made, the
engine still keeps the text. -/
theorem get?_of_binding {p : Process} {call : Call} {i : Nat} {name text : String}
    (h : call.binding? i (p.step call).1 = some (name, text)) (further : List Call) :
    ∃ engine, ((p.step call).2.after further).engines[i]? = some engine ∧
      engine.store.texts.get? name = some text := by
  have hturns := p.turns_step call i
  rw [h] at hturns
  obtain ⟨engine, hi, hget⟩ := hturns.get?_eq_some
  obtain ⟨engine', hafter, hextends⟩ := extends_after further hi
  exact ⟨engine', hafter, hextends _ _ hget⟩

/-- After a rule has been created in an engine and any further calls have been made, the
engine still keeps the rule's text. -/
theorem get?_of_create {p : Process} {i : Nat} {name text : String} {tree : Tree}
    (h : (p.step (.create i name text)).1 = .tree (.ok tree)) (calls : List Call) :
    ∃ engine, ((p.step (.create i name text)).2.after calls).engines[i]? = some engine ∧
      engine.store.texts.get? name = some tree.portable.json := by
  refine get?_of_binding ?_ calls
  rw [h, Call.binding?_self rfl]
  rfl

end Process

/-! ## What a store holds -/

/-- A call that binds nothing in an engine leaves it as it is, and one that binds a name
makes one more binding, of a name that the store takes. -/
theorem Turns.engine {engine : Engine} {binding : Option (String × String)}
    {after : Option Engine} (h : Turns (some engine) binding after) :
    ∃ engine', after = some engine' ∧ (binding = none → engine' = engine) ∧
      ∀ name text, binding = some (name, text) → engine.store.Takes name ∧
        ∀ other, engine'.store.texts.get? other =
          if other = name then some text else engine.store.texts.get? other := by
  cases h with
  | kept => exact ⟨engine, rfl, fun _ => rfl, by simp⟩
  | @bound _ bound p store hadd =>
      refine ⟨_, rfl, by simp, ?_⟩
      rintro _ _ ⟨⟩
      refine ⟨(Store.takes_iff p).2 ⟨store, hadd⟩, ?_⟩
      intro other
      obtain ⟨-, -, rfl⟩ := Store.add_eq_ok_iff.1 hadd
      exact Table.get?_insert _ _ _ _

/-- A store holds these bindings. -/
structure Store.Holds (s : Store) (bindings : List (String × String)) : Prop where
  /-- These and no other names are bound, each to its text. -/
  get?_eq_some_iff : ∀ name text, s.texts.get? name = some text ↔ (name, text) ∈ bindings
  /-- No name is bound twice. -/
  nodup : (bindings.map Prod.fst).Nodup
  /-- The names are strictly sorted. -/
  names_sorted : s.names.Pairwise (· < ·)
  /-- They are those that are bound. -/
  mem_names_iff : ∀ name, name ∈ s.names ↔ name ∈ bindings.map Prod.fst
  /-- None of them is blank. -/
  names_not_blank : ∀ name ∈ s.names, ∃ c ∈ name.toList, Text.isBlank c = false
  /-- There are as many of them as bindings. -/
  length_names : s.names.length = bindings.length
  /-- The size is the number of bindings. -/
  size : s.size = bindings.length

/-- The entries of the store in some place, none where there is no engine. -/
def entriesOf (engine : Option Engine) : List (String × String) :=
  engine.elim [] (·.store.texts.entries)

theorem Turns.entriesOf {before after : Option Engine} {binding : Option (String × String)}
    (h : Turns before binding after) :
    entriesOf after = binding.toList ++ entriesOf before := by
  cases h with
  | kept => rfl
  | made => rfl
  | bound hadd => exact Store.entries_of_add hadd

theorem Turns.isBlankText {before after : Option Engine} {name text : String}
    (h : Turns before (some (name, text)) after) : Text.isBlankText name = false := by
  cases h with
  | bound hadd => exact (Store.add_eq_ok_iff.1 hadd).1

namespace Process

/-- The entries of a store are what calls have bound in it, the newest first. -/
theorem entriesOf_after (p : Process) (i : Nat) (calls : List Call) :
    entriesOf (p.after calls).engines[i]? =
      (p.bindings i calls).reverse ++ entriesOf p.engines[i]? := by
  induction calls generalizing p with
  | nil => rfl
  | cons call rest ih =>
      have hstep := (p.turns_step call i).entriesOf
      have hrest := ih (p.step call).2
      rw [hstep] at hrest
      rw [bindings, List.reverse_append, List.append_assoc]
      refine hrest.trans ?_
      cases call.binding? i (p.step call).1 <;> rfl

/-- No name that is bound is blank. -/
theorem isBlankText_of_mem_bindings {p : Process} {i : Nat} {calls : List Call}
    {name text : String} (h : (name, text) ∈ p.bindings i calls) :
    Text.isBlankText name = false := by
  induction calls generalizing p with
  | nil => cases h
  | cons call rest ih =>
      rcases List.mem_append.1 h with hstep | hrest
      · have hturns := p.turns_step call i
        rw [Option.mem_toList.1 hstep] at hturns
        exact hturns.isBlankText
      · exact ih hrest

end Process

namespace Engine

theorem answer_put (engine : Engine) (name : String) (p : PortableTree) :
    ∃ result, (engine.answer (.put name p)).1 = .put result ∧
      (result = .ok () ↔ engine.store.Takes name) ∧
      ∀ e, result = .error e → ∃ fault, e = .storage fault := by
  rw [answer, Store.takes_iff p]
  cases hadd : engine.store.add name p with
  | error e =>
      refine ⟨.error e, rfl, by simp, ?_⟩
      rintro _ ⟨⟩
      exact Store.storage_of_add hadd
  | ok store => exact ⟨.ok (), rfl, by simp, by simp⟩

end Engine

namespace Process

theorem create_plain {p : Process} (hc : p.cache.Sound) {i : Nat} {engine : Engine}
    (h : p.engines[i]? = some engine) (name text : String) :
    (p.step (.create i name text)).1 = .tree (engine.plainCreate name text).1 := by
  rw [(step_plain hc _).1, Call.plain, h]

/-- The store of an engine that calls have made holds what they have bound. -/
theorem holds_after {calls : List Call} {i : Nat} {engine : Engine}
    (h : (start.after calls).engines[i]? = some engine) :
    engine.store.Holds (start.bindings i calls) := by
  have hentries : engine.store.texts.entries = (start.bindings i calls).reverse := by
    have hafter := entriesOf_after start i calls
    rw [h] at hafter
    exact hafter.trans (List.append_nil _)
  have hsize : engine.store.size = (start.bindings i calls).length := by
    rw [Store.size, Table.size, hentries, List.length_reverse]
  have hget : ∀ name text, engine.store.texts.get? name = some text ↔
      (name, text) ∈ start.bindings i calls := by
    intro name text
    rw [← Table.mem_entries_iff, hentries, List.mem_reverse]
  constructor
  case get?_eq_some_iff => exact hget
  case nodup =>
    have hnodup := engine.store.texts.nodup
    rw [hentries, List.map_reverse] at hnodup
    exact (List.reverse_perm _).nodup_iff.1 hnodup
  case names_sorted => exact engine.store.pairwise_names
  case mem_names_iff =>
    intro name
    rw [Store.mem_names_iff]
    simp [hget]
  case names_not_blank =>
    intro name hname
    obtain ⟨text, htext⟩ := Store.mem_names_iff.1 hname
    exact Text.isBlankText_eq_false_iff.1 (isBlankText_of_mem_bindings ((hget name text).1 htext))
  case length_names => rw [Store.length_names, hsize]
  case size => exact hsize

/-- Let calls have made an engine.  Its store holds what the successful ones have bound.  It
creates a rule exactly if the text is a rule and the store takes the name, and otherwise
fails with the error of the text, or else with one of storage; likewise it stores a rule.
A call that fails or binds nothing leaves the engine as it is, and any other adds one
binding.  No further calls change or remove a binding. -/
theorem names_are_bound_once (calls : List Call) {i : Nat} {engine : Engine}
    (h : (start.after calls).engines[i]? = some engine) :
    let p := start.after calls
    engine.store.Holds (start.bindings i calls) ∧
    (∀ name text, ∃ result, (p.step (.create i name text)).1 = .tree result ∧
      (∀ tree, result = .ok tree ↔ Tree.parse text = .ok tree ∧ engine.store.Takes name) ∧
      ∀ e, result = .error e → Tree.parse text = .error e ∨
        (∃ tree, Tree.parse text = .ok tree) ∧ ∃ fault, e = .storage fault) ∧
    (∀ name tree, ∃ result, (p.step (.ask i (.put name tree))).1 = .put result ∧
      (result = .ok () ↔ engine.store.Takes name) ∧
      ∀ e, result = .error e → ∃ fault, e = .storage fault) ∧
    (∀ call, ∃ engine', (p.step call).2.engines[i]? = some engine' ∧
      ((p.step call).1.error? ≠ none → engine' = engine) ∧
      (call.binding? i (p.step call).1 = none → engine' = engine) ∧
      ∀ name text, call.binding? i (p.step call).1 = some (name, text) →
        engine.store.Takes name ∧ ∀ other, engine'.store.texts.get? other =
          if other = name then some text else engine.store.texts.get? other) ∧
    ∀ further, ∃ engine', (p.after further).engines[i]? = some engine' ∧
      engine.store.Extends engine'.store := by
  intro p
  have hc : p.cache.Sound := sound_after (.of_empty rfl) calls
  refine ⟨holds_after h, ?_, ?_, ?_, fun further => extends_after further h⟩
  · intro name text
    exact ⟨_, create_plain hc h name text, fun _ => Engine.plainCreate_eq_ok_iff,
      fun _ => Engine.error_of_plainCreate⟩
  · intro name tree
    rw [step, h]
    exact engine.answer_put name tree
  · intro call
    have hturns := p.turns_step call i
    rw [h] at hturns
    obtain ⟨engine', hengine', hnone, hsome⟩ := hturns.engine
    refine ⟨engine', hengine', ?_, hnone, hsome⟩
    intro herror
    obtain ⟨e, he⟩ := Option.ne_none_iff_exists'.1 herror
    exact hnone (Call.binding?_of_bound? (Call.bound?_of_error he) i)

/-- A second rule under one name, a text that is no rule and a blank name. -/
theorem names_are_bound_once_two :
    let calls : List Call := [.newEngine {}, .create 0 "r" "a > 1", .create 0 "r" "a > 2",
      .create 0 "s" "a >", .ask 0 (.put "\u3000" .absent), .ask 0 (.put "b" .absent)]
    let rule : Tree := .leaf ⟨"a", .greater, .int 1⟩
    ∃ engine, (start.after calls).engines[0]? = some engine ∧
      engine.store.texts.get? "r" = some rule.portable.json ∧
      engine.store.names.length = 2 ∧ "s" ∉ engine.store.names ∧
      ((start.after calls).step (.create 0 "s" "a > 1")).1 = .tree (.ok rule) ∧
      ((start.after calls).step (.create 0 "r" "a > 1")).1 ≠ .tree (.ok rule) := by
  intro calls rule
  have hbindings : start.bindings 0 calls =
      [("r", rule.portable.json), ("b", PortableTree.absent.json)] := by
    decide +kernel
  obtain ⟨engine, hengine⟩ : ∃ engine, (start.after calls).engines[0]? = some engine :=
    Option.isSome_iff_exists.1 (by decide +kernel)
  obtain ⟨hholds, hcreate, -⟩ := names_are_bound_once calls hengine
  rw [hbindings] at hholds
  have hr : engine.store.texts.get? "r" = some rule.portable.json :=
    (hholds.get?_eq_some_iff _ _).2 (.head _)
  have hs : "s" ∉ engine.store.names := by simp [hholds.mem_names_iff]
  have hfree : engine.store.texts.get? "s" = none := by
    rw [Option.eq_none_iff_forall_ne_some]
    intro text htext
    exact hs (Store.mem_names_iff.2 ⟨text, htext⟩)
  refine ⟨engine, hengine, hr, hholds.length_names, hs, ?_, ?_⟩
  · obtain ⟨result, hresult, hok, -⟩ := hcreate "s" "a > 1"
    rw [hresult, (hok rule).2 ⟨rfl, ⟨'s', by decide, by decide⟩, hfree⟩]
  · obtain ⟨result, hresult, hok, -⟩ := hcreate "r" "a > 1"
    rw [hresult]
    intro h
    obtain ⟨-, -, hnone⟩ := (hok rule).1 (Outcome.tree.inj h)
    rw [hr] at hnone
    cases hnone

end Process

end Rulebook
