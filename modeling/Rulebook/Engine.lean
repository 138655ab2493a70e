import Rulebook.Settings
import Rulebook.Store

/-!
# The engine

An engine names rules: it reads a rule text and stores the rule under a name, and later
evaluates it on records.  Every use of a stored rule reads its JSON text again.
-/

namespace Rulebook

/-- An engine. -/
structure Engine where
  /-- Its settings. -/
  settings : Settings
  /-- Its rules. -/
  store : Store

namespace Engine

/-- An engine without rules. -/
def fresh (settings : Settings) : Engine := ⟨settings, .empty⟩

/-- Reads a rule text and stores the rule under a name.  The text is kept in the cache
even if the rule cannot be stored. -/
def create (engine : Engine) (cache : ParseCache) (name text : String) :
    Except Error Tree × Engine × ParseCache :=
  match cache.parse text with
  | (.error e, cache) => (.error e, engine, cache)
  | (.ok tree, cache) =>
      match engine.store.add name tree.portable with
      | .error e => (.error e, engine, cache)
      | .ok store => (.ok tree, { engine with store }, cache)

/-- The rule under a name. -/
def load (engine : Engine) (name : String) : Except Error (Option Tree) :=
  match engine.store.load name with
  | .error e => .error e
  | .ok p => p.toTree

/-- The result of the rule under a name on a record. -/
def evaluate (engine : Engine) (name : String) (record : Record) : Except Error Bool :=
  match engine.load name with
  | .error e => .error e
  | .ok root => Rulebook.evaluate root record

/-- The fields of the rule under a name. -/
def fields (engine : Engine) (name : String) : Except Error (List String) :=
  (engine.load name).map fieldsOf

end Engine

end Rulebook
