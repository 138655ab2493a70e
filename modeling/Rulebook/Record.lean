import Rulebook.Table
import Rulebook.Value

/-!
# Records

A record binds field names to values.
-/

namespace Rulebook

/-- The values a rule is evaluated on, by field. -/
abbrev Record := Table Value

/-- Whether two records bind the same fields to equal values. -/
def Record.equals (r s : Record) : Bool := Table.agrees Value.equals r s

end Rulebook
