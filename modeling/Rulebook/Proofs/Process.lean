import Mathlib.Control.Monad.Basic
import Rulebook.Engine
import Rulebook.Proofs.Cache
import Rulebook.Proofs.Store

/-!
# Processes

A process has one cache of rule texts and any number of engines, each with a store of its
own.  It makes calls one after the other (`Process.step`, `Process.after`).  The same calls
can be made without a cache (`Call.plain`).

The cache is sound after all calls (`Process.sound_after`), and every call has the outcome
that it has without a cache (`Process.outcomes_eq`).
-/

namespace Rulebook

/-! ## Calls -/

/-- What a rule is read from. -/
inductive Source where
  /-- One text. -/
  | single (text : String)
  /-- Several texts, combined by the operator of the majority. -/
  | combined (texts : List String)
  /-- Several texts, combined by AND. -/
  | conjoined (texts : List String)

/-- The rule of a source, read through a cache. -/
def ParseCache.read (c : ParseCache) : Source → Except Error Tree × ParseCache
  | .single text => c.parse text
  | .combined texts => c.combine texts
  | .conjoined texts => c.conjoin texts

/-- The rule of a source, read without a cache. -/
def Source.read : Source → Except Error Tree
  | .single text => Tree.parse text
  | .combined texts => Tree.combine texts
  | .conjoined texts => Tree.conjoin texts

/-- A rule together with its portable form. -/
def Tree.compiled (tree : Tree) : Tree × PortableTree := (tree, tree.portable)

/-- What an engine can be asked without reading a rule text. -/
inductive Query where
  /-- To store a portable form, whatever it holds. -/
  | put (name : String) (p : PortableTree)
  /-- For the portable form under a name. -/
  | stored (name : String)
  /-- For the rule under a name. -/
  | load (name : String)
  /-- For the result of the rule under a name on a record. -/
  | evaluate (name : String) (record : Record)
  /-- For the fields of the rule under a name. -/
  | fields (name : String)
  /-- For all names. -/
  | names

/-- A call of a process. -/
inductive Call where
  /-- Sets the cache. -/
  | configure (enabled : Bool) (capacity : Nat)
  /-- Empties the cache. -/
  | clear
  /-- Reads a rule. -/
  | read (source : Source)
  /-- Reads a rule and gives its portable form too. -/
  | compile (source : Source)
  /-- Evaluates a rule text on a record. -/
  | check (text : String) (record : Record)
  /-- Makes an engine, which sets the cache. -/
  | newEngine (settings : Settings)
  /-- Reads a rule and stores it in an engine. -/
  | create (engine : Nat) (name text : String)
  /-- Asks an engine. -/
  | ask (engine : Nat) (query : Query)

/-- What a call gives. -/
inductive Outcome where
  | done
  | tree (result : Except Error Tree)
  | compiled (result : Except Error (Tree × PortableTree))
  | verdict (result : Except Error Bool)
  | put (result : Except Error Unit)
  | stored (result : Except Error PortableTree)
  | loaded (result : Except Error (Option Tree))
  | fields (result : Except Error (List String))
  | names (names : List String)
  /-- There is no such engine. -/
  | noEngine
  deriving DecidableEq

/-- An engine's answer, and the engine afterwards. -/
def Engine.answer (engine : Engine) : Query → Outcome × Engine
  | .put name p =>
      match engine.store.add name p with
      | .error e => (.put (.error e), engine)
      | .ok store => (.put (.ok ()), { engine with store })
  | .stored name => (.stored (engine.store.load name), engine)
  | .load name => (.loaded (engine.load name), engine)
  | .evaluate name record => (.verdict (engine.evaluate name record), engine)
  | .fields name => (.fields (engine.fields name), engine)
  | .names => (.names engine.store.names, engine)

/-! ## Runs -/

/-- The state of a process. -/
structure Process where
  /-- The engines, the oldest first. -/
  engines : List Engine
  /-- The cache of rule texts. -/
  cache : ParseCache

namespace Process

/-- A process without engines. -/
def start : Process := ⟨[], .fresh⟩

/-- What one call gives, and the process after it. -/
def step (p : Process) : Call → Outcome × Process
  | .configure enabled capacity =>
      (.done, { p with cache := p.cache.configure enabled capacity })
  | .clear => (.done, { p with cache := p.cache.clear })
  | .read source =>
      match p.cache.read source with
      | (result, cache) => (.tree result, { p with cache })
  | .compile source =>
      match p.cache.read source with
      | (result, cache) => (.compiled (result.map Tree.compiled), { p with cache })
  | .check text record =>
      match p.cache.check text record with
      | (result, cache) => (.verdict result, { p with cache })
  | .newEngine settings =>
      (.done, ⟨p.engines ++ [.fresh settings], settings.configure p.cache⟩)
  | .create i name text =>
      match p.engines[i]? with
      | none => (.noEngine, p)
      | some engine =>
          match engine.create p.cache name text with
          | (result, engine, cache) => (.tree result, ⟨p.engines.set i engine, cache⟩)
  | .ask i query =>
      match p.engines[i]? with
      | none => (.noEngine, p)
      | some engine =>
          match engine.answer query with
          | (outcome, engine) => (outcome, { p with engines := p.engines.set i engine })

/-- The process after calls. -/
def after (p : Process) (calls : List Call) : Process :=
  calls.foldl (fun p call => (p.step call).2) p

/-- What calls give. -/
def outcomes (p : Process) : List Call → List Outcome
  | [] => []
  | call :: rest => (p.step call).1 :: (p.step call).2.outcomes rest

end Process

/-! ## Runs without a cache -/

/-- Stores the rule of a text, read without a cache. -/
def Engine.plainCreate (engine : Engine) (name text : String) : Except Error Tree × Engine :=
  match Tree.parse text with
  | .error e => (.error e, engine)
  | .ok tree =>
      match engine.store.add name tree.portable with
      | .error e => (.error e, engine)
      | .ok store => (.ok tree, { engine with store })

/-- A rule is created exactly if it is the rule of its text and the store takes its name. -/
theorem Engine.plainCreate_eq_ok_iff {engine : Engine} {name text : String} {tree : Tree} :
    (engine.plainCreate name text).1 = .ok tree ↔
      Tree.parse text = .ok tree ∧ engine.store.Takes name := by
  rw [plainCreate]
  cases Tree.parse text with
  | error e => simp
  | ok read =>
      rw [Store.takes_iff read.portable]
      simp only
      cases engine.store.add name read.portable with
      | error e => simp
      | ok store => simp

theorem Engine.error_of_plainCreate {engine : Engine} {name text : String} {e : Error}
    (h : (engine.plainCreate name text).1 = .error e) :
    Tree.parse text = .error e ∨
      (∃ tree, Tree.parse text = .ok tree) ∧ ∃ fault, e = .storage fault := by
  rw [plainCreate] at h
  split at h
  next hparse =>
    cases h
    exact .inl hparse
  next tree hparse =>
    split at h
    next hadd =>
      cases h
      exact .inr ⟨⟨tree, hparse⟩, Store.storage_of_add hadd⟩
    next => cases h

/-- What a call gives where there is no cache, and the engines after it. -/
def Call.plain (engines : List Engine) : Call → Outcome × List Engine
  | .configure _ _ => (.done, engines)
  | .clear => (.done, engines)
  | .read source => (.tree source.read, engines)
  | .compile source => (.compiled (source.read.map Tree.compiled), engines)
  | .check text record =>
      (.verdict (if Text.isBlankText text then .ok true
        else (Tree.parse text).bind (·.evaluate record)), engines)
  | .newEngine settings => (.done, engines ++ [.fresh settings])
  | .create i name text =>
      match engines[i]? with
      | none => (.noEngine, engines)
      | some engine =>
          match engine.plainCreate name text with
          | (result, engine) => (.tree result, engines.set i engine)
  | .ask i query =>
      match engines[i]? with
      | none => (.noEngine, engines)
      | some engine =>
          match engine.answer query with
          | (outcome, engine) => (outcome, engines.set i engine)

/-- What calls give where there is no cache. -/
def plainOutcomes (engines : List Engine) : List Call → List Outcome
  | [] => []
  | call :: rest => (call.plain engines).1 :: plainOutcomes (call.plain engines).2 rest

/-! ## The cache does not show -/

theorem ParseCache.Sound.read {c : ParseCache} (h : c.Sound) (source : Source) :
    ParseCache.Transparent (c.read source) source.read := by
  cases source with
  | single text => exact h.parse text
  | combined texts => exact h.combine texts
  | conjoined texts => exact h.conjoin texts

/-- Storing the rule of a text through a sound cache is storing it. -/
theorem Engine.create_plain {engine : Engine} {c : ParseCache} (h : c.Sound)
    (name text : String) :
    ∃ cache : ParseCache, cache.Sound ∧ engine.create c name text =
      ((engine.plainCreate name text).1, (engine.plainCreate name text).2, cache) := by
  obtain ⟨hr, hc⟩ := h.parse text
  rw [Engine.create, Engine.plainCreate, ← hr]
  generalize c.parse text = outcome at hc
  obtain ⟨result, c'⟩ := outcome
  refine ⟨c', hc, ?_⟩
  cases result with
  | error e => rfl
  | ok tree =>
      simp only
      cases engine.store.add name tree.portable <;> rfl

namespace Process

/-- A call on a sound cache gives what it gives without one, does the same to the engines,
and leaves a sound cache. -/
theorem step_plain {p : Process} (h : p.cache.Sound) (call : Call) :
    (p.step call).1 = (call.plain p.engines).1 ∧
      (p.step call).2.engines = (call.plain p.engines).2 ∧ (p.step call).2.cache.Sound := by
  cases call with
  | configure enabled capacity => exact ⟨rfl, rfl, h.configure enabled capacity⟩
  | clear => exact ⟨rfl, rfl, .clear p.cache⟩
  | read source =>
      obtain ⟨hr, hc⟩ := h.read source
      exact ⟨congrArg Outcome.tree hr, rfl, hc⟩
  | compile source =>
      obtain ⟨hr, hc⟩ := h.read source
      refine ⟨?_, rfl, hc⟩
      simp only [step, Call.plain, hr]
  | check text record =>
      obtain ⟨hr, hc⟩ := h.check text record
      exact ⟨congrArg Outcome.verdict hr, rfl, hc⟩
  | newEngine settings => exact ⟨rfl, rfl, h.configure _ _⟩
  | create i name text =>
      simp only [step, Call.plain]
      cases p.engines[i]? with
      | none => exact ⟨rfl, rfl, h⟩
      | some engine =>
          obtain ⟨cache, hc, heq⟩ := @Engine.create_plain engine _ h name text
          simp only [heq]
          exact ⟨trivial, trivial, hc⟩
  | ask i query =>
      simp only [step, Call.plain]
      cases p.engines[i]? with
      | none => exact ⟨rfl, rfl, h⟩
      | some engine => exact ⟨rfl, rfl, h⟩

/-- The cache stays sound. -/
theorem sound_after {p : Process} (h : p.cache.Sound) (calls : List Call) :
    (p.after calls).cache.Sound := by
  induction calls generalizing p with
  | nil => exact h
  | cons call rest ih => exact ih (step_plain h call).2.2

/-- Calls on a sound cache give what they give without one. -/
theorem outcomes_eq {p : Process} (h : p.cache.Sound) (calls : List Call) :
    p.outcomes calls = plainOutcomes p.engines calls := by
  induction calls generalizing p with
  | nil => rfl
  | cons call rest ih =>
      obtain ⟨houtcome, hengines, hc⟩ := step_plain h call
      rw [outcomes, plainOutcomes, houtcome, ← hengines, ih hc]

/-- After any calls that start from an empty cache, whatever its settings and the engines,
every call gives what it gives where there is no cache.  The check of a text holds of every
record if the text is blank, and otherwise it reads the text and evaluates its rule, so it
never finds an empty rule. -/
theorem outcomes_eq_plainOutcomes (engines : List Engine) (enabled : Bool) (capacity : Nat)
    (calls : List Call) :
    let p : Process := ⟨engines, ⟨enabled, capacity, .empty⟩⟩
    p.outcomes calls = plainOutcomes engines calls ∧
      ∀ text record, ∃ result,
        ((p.after calls).step (.check text record)).1 = .verdict result ∧
        (Text.isBlankText text = true → result = .ok true) ∧
        (Text.isBlankText text = false →
          result = (Tree.parse text).bind (·.evaluate record)) ∧
        result ≠ .error .emptyRule := by
  intro p
  have hp : p.cache.Sound := .of_empty rfl
  refine ⟨outcomes_eq hp calls, ?_⟩
  intro text record
  obtain ⟨hcheck, -, -⟩ := step_plain (sound_after hp calls) (.check text record)
  refine ⟨_, hcheck, ?_, ?_, ?_⟩
  · intro hblank
    rw [if_pos hblank]
  · intro hblank
    rw [if_neg (by rw [hblank]; exact Bool.false_ne_true)]
  · split
    · intro hok
      cases hok
    next hblank =>
      have hempty := mt (Tree.parse_eq_emptyRule_iff text).1 hblank
      cases hparse : Tree.parse text with
      | error e =>
          intro herror
          cases herror
          exact hempty hparse
      | ok tree => exact tree.evaluate_ne_emptyRule record

end Process

end Rulebook
