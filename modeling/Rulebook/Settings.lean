import Rulebook.Cache
import Rulebook.Json.Members
import Rulebook.Json.Reader

/-!
# Settings

The settings of an engine are those of the cache.  In JSON they are an object with the
keys `cache_enabled` and `cache_capacity`, or an array of up to two values in this order;
what is left out has its default.
-/

namespace Rulebook

/-- The settings of an engine. -/
structure Settings where
  /-- Whether rules are kept in the cache. -/
  cacheEnabled : Bool := true
  /-- How many rules are kept. -/
  cacheCapacity : Nat := defaultCapacity
  deriving DecidableEq

namespace Settings

/-- A cache with these settings. -/
def configure (s : Settings) (c : ParseCache) : ParseCache :=
  c.configure s.cacheEnabled s.cacheCapacity

open Json

/-- Whether the cache is enabled, as a value of its key says. -/
def enabled? : Slot → Option Bool
  | .missing => some true
  | .once (.bool b) => some b
  | _ => none

/-- The capacity of the cache, as a value of its key says: an integer that is not
negative. -/
def capacity? : Slot → Option Nat
  | .missing => some defaultCapacity
  | .once (.number n) =>
      match n.number? with
      | some (.int i) => if 0 ≤ i then some i.toNat else none
      | _ => none
  | _ => none

/-- The settings of the values of both keys. -/
def ofSlots? (enabled capacity : Slot) : Option Settings :=
  match enabled? enabled, capacity? capacity with
  | some enabled, some capacity => some ⟨enabled, capacity⟩
  | _, _ => none

/-- The settings that a document holds. -/
def ofDocument? : Document → Option Settings
  | .array [] => ofSlots? .missing .missing
  | .array [enabled] => ofSlots? (.once enabled) .missing
  | .array [enabled, capacity] => ofSlots? (.once enabled) (.once capacity)
  | .object members =>
      (Document.textMembers? members).bind fun members =>
        ofSlots? (Slot.find ["cache_enabled"] members) (Slot.find ["cache_capacity"] members)
  | _ => none

/-- The settings that a JSON text holds. -/
def ofJson (text : String) : Except Error Settings :=
  match (Document.parse? text.toList).bind ofDocument? with
  | some s => .ok s
  | none => .error (.faultyData .unreadable)

end Settings

end Rulebook
