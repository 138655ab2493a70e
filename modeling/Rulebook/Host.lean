import Rulebook.Settings

/-!
# Values of the host

The host of a session is dynamically typed: records and settings come from it as
dictionaries whose keys and values may be anything.  `HostDict.record` and
`HostDict.settings` read them.

A text of the host is a sequence of code points, which may be surrogates.  Surrogates have
no encoding, so a text with surrogates is no string (`BrokenText`).  All other texts are
(`textOfPoints`).

A record is read entry by entry, and the first entry that is no field with a value
decides the fault.  Settings are looked up by key, and all other keys are passed over.
-/

namespace Rulebook

/-- A code point of a text. -/
inductive CodePoint where
  | char (c : Char)
  /-- A surrogate, by its distance from `0xD800`. -/
  | surrogate (offset : Fin 0x800)
  deriving DecidableEq

/-- The character that a code point is. -/
def CodePoint.char? : CodePoint → Option Char
  | char c => some c
  | surrogate _ => none

/-- A text with surrogates. -/
structure BrokenText where
  /-- The code points. -/
  points : List CodePoint
  /-- Not all of them are characters. -/
  broken : points.mapM CodePoint.char? = none
  deriving DecidableEq

/-- The string that code points are, or else the text with surrogates. -/
def textOfPoints (points : List CodePoint) : Except BrokenText String :=
  match h : points.mapM CodePoint.char? with
  | some chars => .ok (String.ofList chars)
  | none => .error ⟨points, h⟩

/-- A key of a dictionary.  Only texts name fields, and only without surrogates. -/
inductive HostKey where
  | text (s : String)
  | broken (t : BrokenText)
  | other
  deriving DecidableEq

/-- A value of the host. -/
inductive HostValue where
  | int (i : Int)
  | float (x : Binary64)
  | text (s : String)
  | broken (t : BrokenText)
  | bool (b : Bool)
  | none
  | list (items : List HostValue)
  | tuple (items : List HostValue)
  | bytes (content : List UInt8)
  | dict (entries : List (HostKey × HostValue))
  /-- A value of another type, by the name of the type.  It acts neither as an integer nor as
  a truth value. -/
  | other (typeName : String)
  deriving Inhabited

/-- A dictionary of the host, in the order of its entries.  Keys of types that are derived from
texts can have one text and still be different. -/
abbrev HostDict := List (HostKey × HostValue)

/-- Why an operation of a session fails. -/
inductive SessionFault where
  /-- The error of the operation itself. -/
  | engine (error : Error)
  /-- There is no engine. -/
  | notReady
  /-- A key of a record is no text. -/
  | keyNotText
  /-- A text in a record has surrogates. -/
  | textBroken
  /-- An integer does not fit in 64 bits. -/
  | integerTooLarge
  deriving DecidableEq

/-- The kinds of faults that the host tells apart. -/
inductive FaultCategory where
  /-- Something is not there. -/
  | lookup
  /-- The input is wrong. -/
  | input
  /-- Data, settings, or the state of the session are wrong. -/
  | failure
  /-- A value has the wrong type. -/
  | type
  /-- A number is out of range. -/
  | range
  /-- A text has no encoding. -/
  | encoding
  deriving DecidableEq, Repr

namespace SessionFault

/-- The category of a fault. -/
def category : SessionFault → FaultCategory
  | engine (.missingField _) => .lookup
  | engine (.ruleNotFound _) => .lookup
  | engine e => if e.isClientError then .input else .failure
  | notReady => .failure
  | keyNotText => .type
  | textBroken => .encoding
  | integerTooLarge => .range

/-- The wording of a fault, where it has one. -/
def message? : SessionFault → Option String
  | engine e => e.message?
  | notReady => some "Engine not initialized. Call init_engine() first."
  | keyNotText => none
  | textBroken => none
  | integerTooLarge => none

end SessionFault

/-- The name of the type of a value. -/
def HostValue.typeName : HostValue → String
  | int _ => "int"
  | float _ => "float"
  | text _ => "str"
  | broken _ => "str"
  | bool _ => "bool"
  | none => "NoneType"
  | list _ => "list"
  | tuple _ => "tuple"
  | bytes _ => "bytes"
  | dict _ => "dict"
  | other typeName => typeName

/-- The value of a field in a record. -/
def HostValue.fieldValue (field : String) : HostValue → Except SessionFault Value
  | int i => match Value.ofInt? i with
    | some value => .ok value
    | Option.none => .error .integerTooLarge
  | float x => .ok (.float x)
  | text s => .ok (.text s)
  | broken _ => .error .textBroken
  | v => .error (.engine (.invalidRecordValue field v.typeName))

namespace HostDict

/-- Sets a key, where texts as keys are of no derived type.  A text that is there keeps its place
and takes the new value. -/
def put : HostDict → HostKey → HostValue → HostDict
  | [], key, value => [(key, value)]
  | (k, old) :: rest, key, value =>
      if key = k ∧ k ≠ .other then (key, value) :: rest else (k, old) :: put rest key value

/-- The dictionary that arises by setting keys one after the other. -/
def ofEntries (entries : List (HostKey × HostValue)) : HostDict :=
  entries.foldl (fun d e => put d e.1 e.2) []

/-- The value of a key. -/
def find? (d : HostDict) (key : String) : Option HostValue := d.lookup (.text key)

/-- Adds the entries of a dictionary to a record. -/
def addTo (record : Record) : HostDict → Except SessionFault Record
  | [] => .ok record
  | (.other, _) :: _ => .error .keyNotText
  | (.broken _, _) :: _ => .error .textBroken
  | (.text field, value) :: rest =>
      match value.fieldValue field with
      | .error f => .error f
      | .ok value => addTo (record.insert field value) rest

/-- The record that a dictionary is. -/
def record (d : HostDict) : Except SessionFault Record := addTo .empty d

/-- Whether the cache is enabled, as a dictionary says. -/
def cacheEnabled (d : HostDict) : Except Error Bool :=
  match find? d "cache_enabled" with
  | none => .ok true
  | some (.bool b) => .ok b
  | some _ => .error (.faultyData .cacheEnabledNotBool)

/-- The natural number below `2 ^ 64` that a value is; a truth value counts as zero or
one. -/
def count? : HostValue → Option Nat
  | .int i => if 0 ≤ i ∧ i < UInt64.size then some i.toNat else none
  | .bool b => some b.toNat
  | _ => none

/-- The capacity of the cache, as a dictionary says. -/
def cacheCapacity (d : HostDict) : Except Error Nat :=
  match find? d "cache_capacity" with
  | none => .ok defaultCapacity
  | some value =>
      match count? value with
      | some n => .ok n
      | none => .error (.faultyData .cacheCapacityNotCount)

/-- The settings that a dictionary holds. -/
def settings (d : HostDict) : Except Error Settings :=
  match cacheEnabled d with
  | .error e => .error e
  | .ok enabled => (cacheCapacity d).map fun capacity => ⟨enabled, capacity⟩

end HostDict

end Rulebook
