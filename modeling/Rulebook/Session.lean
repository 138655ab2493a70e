import Rulebook.Engine
import Rulebook.Host

/-!
# Sessions

A session serves a host.  It starts without an engine; `Session.start` makes one, and
makes a new one without rules when called again.  Rules can be read, combined and
evaluated without an engine, and named ones only with it.  A named rule is evaluated at
once (`Session.evaluateRule`), or asked for first and evaluated later (`Session.request`,
`Session.run`).

An operation that fails leaves the engine as it was.
-/

namespace Rulebook

/-- The state of a session. -/
structure Session where
  /-- The engine, once there is one. -/
  engine : Option Engine
  /-- The cache of rule texts, which outlives engines. -/
  cache : ParseCache

/-- The text by which the host shows a rule. -/
def Tree.shown (tree : Tree) : String := "CompiledRule(" ++ tree.display ++ ")"

namespace Session

/-- A session without an engine. -/
def fresh : Session := ⟨none, .fresh⟩

/-- The result of an operation of the engine, with its error as a fault. -/
def lift {α : Type} : Except Error α → Except SessionFault α
  | .ok a => .ok a
  | .error e => .error (.engine e)

/-- Makes an engine without rules, with the settings of a dictionary. -/
def start (s : Session) (dict : Option HostDict) : Except SessionFault Unit × Session :=
  match (dict.map HostDict.settings).getD (.ok {}) with
  | .error e => (.error (.engine e), s)
  | .ok settings => (.ok (), ⟨some (.fresh settings), settings.configure s.cache⟩)

/-- Whether there is an engine. -/
def isReady (s : Session) : Bool := s.engine.isSome

/-- The result of an operation on the cache. -/
def cached {α : Type} (s : Session) (result : Except Error α × ParseCache) :
    Except SessionFault α × Session :=
  (lift result.1, { s with cache := result.2 })

/-- The rule that a text is. -/
def parse (s : Session) (text : String) : Except SessionFault Tree × Session :=
  s.cached (s.cache.parse text)

/-- Combines rules by the operator of the majority. -/
def combine (s : Session) (texts : List String) : Except SessionFault Tree × Session :=
  s.cached (s.cache.combine texts)

/-- Combines rules by AND. -/
def conjoin (s : Session) (texts : List String) : Except SessionFault Tree × Session :=
  s.cached (s.cache.conjoin texts)

/-- The result of a rule on a dictionary. -/
def evaluateTree (tree : Tree) (dict : HostDict) : Except SessionFault Bool :=
  match HostDict.record dict with
  | .error f => .error f
  | .ok record => lift (tree.evaluate record)

/-- The result on a dictionary of the rule that a JSON text holds. -/
def evaluateJson (json : String) (dict : HostDict) : Except SessionFault Bool :=
  match HostDict.record dict with
  | .error f => .error f
  | .ok record =>
      match Tree.ofJson json with
      | .error e => .error (.engine e)
      | .ok root => lift (evaluate root record)

/-- The fields of the rule that a JSON text holds. -/
def fieldsOfJson (json : String) : Except SessionFault (List String) :=
  lift ((Tree.ofJson json).map fieldsOf)

/-- Reads a rule text and stores the rule under a name. -/
def create (s : Session) (name text : String) : Except SessionFault Tree × Session :=
  match s.engine with
  | none => (.error .notReady, s)
  | some engine =>
      match engine.create s.cache name text with
      | (result, engine, cache) => (lift result, ⟨some engine, cache⟩)

/-- The result of the rule under a name on a dictionary. -/
def evaluateRule (s : Session) (name : String) (dict : HostDict) :
    Except SessionFault Bool :=
  match s.engine with
  | none => .error .notReady
  | some engine =>
      match HostDict.record dict with
      | .error f => .error f
      | .ok record => lift (engine.evaluate name record)

/-- An evaluation that has been asked for and not yet run. -/
structure Request where
  /-- The name of the rule. -/
  name : String
  /-- The record, already read. -/
  record : Record

/-- Asks for the result of the rule under a name on a dictionary.  The dictionary is read
at once. -/
def request (s : Session) (name : String) (dict : HostDict) : Except SessionFault Request :=
  match s.engine with
  | none => .error .notReady
  | some _ =>
      match HostDict.record dict with
      | .error f => .error f
      | .ok record => .ok ⟨name, record⟩

/-- Runs an evaluation on the rules that the session has by then. -/
def run (s : Session) (r : Request) : Except SessionFault Bool :=
  match s.engine with
  | none => .error .notReady
  | some engine => lift (engine.evaluate r.name r.record)

/-- The fields of the rule under a name. -/
def ruleFields (s : Session) (name : String) : Except SessionFault (List String) :=
  match s.engine with
  | none => .error .notReady
  | some engine => lift (engine.fields name)

end Session

end Rulebook
