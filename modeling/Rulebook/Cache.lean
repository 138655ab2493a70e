import Rulebook.Combination
import Rulebook.Evaluation
import Rulebook.Table

/-!
# The cache of rule texts

Reading a rule text again costs nothing while the cache holds its rule.  The cache is
emptied when a new rule finds it full, when it is switched off, and when its capacity
falls below its size.  Texts that are no rules are not kept.

Each operation gives its result and the cache afterwards.  The results do not depend on
the cache; they are those of `Tree.parse`, `Tree.combine` and `Tree.conjoin`.
-/

namespace Rulebook

/-- The rules read before, by text. -/
structure ParseCache where
  /-- Whether rules are kept. -/
  enabled : Bool
  /-- How many rules are kept. -/
  capacity : Nat
  /-- The rules that are kept. -/
  trees : Table Tree

/-- The capacity of a cache for which none is set. -/
def defaultCapacity : Nat := 2048

namespace ParseCache

/-- An empty cache that is switched on. -/
def fresh : ParseCache := ⟨true, defaultCapacity, .empty⟩

/-- How many rules are kept. -/
def size (c : ParseCache) : Nat := c.trees.size

/-- Forgets all rules. -/
def clear (c : ParseCache) : ParseCache := { c with trees := .empty }

/-- Changes the settings. -/
def configure (c : ParseCache) (enabled : Bool) (capacity : Nat) : ParseCache where
  enabled := enabled
  capacity := capacity
  trees := if !enabled || decide (capacity < c.size) then .empty else c.trees

/-- Keeps a rule. -/
def remember (c : ParseCache) (text : String) (tree : Tree) : ParseCache :=
  if c.capacity = 0 then c
  else
    let trees := if c.capacity ≤ c.size then .empty else c.trees
    { c with trees := trees.insert text tree }

/-- The rule that a text is. -/
def parse (c : ParseCache) (text : String) : Except Error Tree × ParseCache :=
  if c.enabled then
    match c.trees.get? text with
    | some tree => (.ok tree, c)
    | none =>
        match Tree.parse text with
        | .error e => (.error e, c)
        | .ok tree => (.ok tree, c.remember text tree)
  else (Tree.parse text, c)

/-- The result on a record of the rule that a text is.  Every record satisfies a blank
text. -/
def check (c : ParseCache) (text : String) (record : Record) :
    Except Error Bool × ParseCache :=
  if Text.isBlankText text then (.ok true, c)
  else match c.parse text with
    | (.error e, c) => (.error e, c)
    | (.ok tree, c) => (tree.evaluate record, c)

/-- The rules of texts, or the error of the first text that is none. -/
def parseAll (c : ParseCache) : List String → Except Error (List Tree) × ParseCache
  | [] => (.ok [], c)
  | text :: rest =>
      match c.parse text with
      | (.error e, c) => (.error e, c)
      | (.ok tree, c) =>
          match c.parseAll rest with
          | (trees, c) => (trees.map (tree :: ·), c)

/-- Combines rules by the operator of the majority. -/
def combine (c : ParseCache) (texts : List String) : Except Error Tree × ParseCache :=
  match c.parseAll texts with
  | (.error e, c) => (.error e, c)
  | (.ok trees, c) =>
      (MeasuredTree.reduce (LogicalOp.majority texts) (trees.map Tree.measured), c)

/-- Joins rules by AND to a rule on their left, each as soon as it is read. -/
def conjoinOnto (c : ParseCache) (left : MeasuredTree) :
    List String → Except Error Tree × ParseCache
  | [] => (.ok left.tree, c)
  | text :: rest =>
      match c.parse text with
      | (.error e, c) => (.error e, c)
      | (.ok right, c) =>
          match MeasuredTree.join .and left right.measured with
          | .error e => (.error e, c)
          | .ok joined => c.conjoinOnto joined rest

/-- Combines rules by AND from left to right. -/
def conjoin (c : ParseCache) : List String → Except Error Tree × ParseCache
  | [] => (.error .noRules, c)
  | text :: rest =>
      match c.parse text with
      | (.error e, c) => (.error e, c)
      | (.ok tree, c) => c.conjoinOnto tree.measured rest

end ParseCache

end Rulebook
