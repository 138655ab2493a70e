import Rulebook.Portable.Document
import Rulebook.Table

/-!
# The store of named rules

The store keeps the JSON text of each rule under its name.  A name is bound once and for
all: no operation replaces or removes a rule.  Nothing is checked when a portable form is
stored, so what is found under a name may be no rule.
-/

namespace Rulebook

/-- The JSON texts of rules, by name. -/
structure Store where
  /-- The texts. -/
  texts : Table String

namespace Store

/-- The store without rules. -/
def empty : Store := ⟨.empty⟩

/-- How many rules are stored. -/
def size (s : Store) : Nat := s.texts.size

/-- The names in order of their code points. -/
def names (s : Store) : List String := s.texts.keys.mergeSort fun a b => decide (a ≤ b)

/-- The store with one more rule.  The name must not be blank, nor taken. -/
def add (s : Store) (name : String) (p : PortableTree) : Except Error Store :=
  if Text.isBlankText name then .error (.storage .blankName)
  else if s.texts.contains name then .error (.storage (.nameTaken name))
  else .ok ⟨s.texts.insert name p.json⟩

/-- The portable form under a name. -/
def load (s : Store) (name : String) : Except Error PortableTree :=
  match s.texts.get? name with
  | none => .error (.ruleNotFound name)
  | some text => PortableTree.ofJson text

end Store

end Rulebook
