import Rulebook.Binary64.Layout
import Rulebook.Binary64.Rounding

/-!
# Values

A value is an integer of 64 bits, a floating-point number or a text.  Records hold
values, and a condition compares with one.

Numbers of both kinds stand in one order (`Value.order?`): an integer is compared with a
floating-point number after rounding it to the nearest one.  Texts are ordered by their
code points.  A number and a text cannot be compared.
-/

namespace Rulebook

/-- What a value can be. -/
inductive Kind where
  | int
  | float
  | text
  deriving DecidableEq, Repr

/-- The name of a kind in messages. -/
def Kind.name : Kind → String
  | .int => "int"
  | .float => "float"
  | .text => "string"

/-- A value of a record or of a condition. -/
inductive Value where
  | int (i : Int64)
  | float (x : Binary64)
  | text (s : String)
  deriving DecidableEq

namespace Value

/-- What a value is. -/
def kind : Value → Kind
  | .int _ => .int
  | .float _ => .float
  | .text _ => .text

/-- The value of an integer that fits in 64 bits. -/
def ofInt? (i : Int) : Option Value :=
  if Int64.minValue.toInt ≤ i ∧ i ≤ Int64.maxValue.toInt then some (int (Int64.ofInt i)) else none

@[simp] theorem ofInt?_toInt (i : Int64) : ofInt? i.toInt = some (int i) := by
  rw [ofInt?, if_pos ⟨i.minValue_le_toInt, i.toInt_le⟩, Int64.ofInt_toInt]

/-- A value as it is written in rule texts.  A text stands between quotes. -/
def display : Value → String
  | .int i => String.ofList (Numeral.ofInt i.toInt).text
  | .float x => String.ofList x.text
  | .text s => "'" ++ s ++ "'"

/-- Whether two values are of one kind and equal.  As numbers the two zeros are equal,
and what is no number differs from itself. -/
def equals : Value → Value → Bool
  | .int i, .int j => i == j
  | .float x, .float y => x.equals y
  | .text s, .text t => s == t
  | _, _ => false

/-- The order of two values, where both are numbers or both are texts.  The inner option
is empty when a number stands in no order. -/
def order? : Value → Value → Option (Option Ordering)
  | .int i, .int j => some (some (compare i.toInt j.toInt))
  | .int i, .float y => some ((Binary64.ofInt i.toInt).order? y)
  | .float x, .int j => some (x.order? (Binary64.ofInt j.toInt))
  | .float x, .float y => some (x.order? y)
  | .text s, .text t => some (some (compare s t))
  | _, _ => none

end Value

example : (Value.int (-5)).display = "-5" := by decide +kernel
example : (Value.text "it").display = "'it'" := by decide +kernel
example : (Value.int (2 ^ 53 + 1)).order? (.float (Binary64.ofInt (2 ^ 53))) =
    some (some .eq) := by decide +kernel

end Rulebook
