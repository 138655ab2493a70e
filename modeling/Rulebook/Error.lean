import Rulebook.Tree

/-!
# Errors

Everything that can go wrong, as causes; the wording is in the `message` functions.  An
error is the caller's (`Error.isClientError`) unless stored data, settings or the store
are at fault.
-/

namespace Rulebook

/-- What is wrong with a rule text at one of its tokens.  Where a token was missing
altogether, `found` is empty. -/
inductive RuleFault where
  | expectedField (found : Option String)
  | expectedComparator
  | unsupportedComparator (found : String)
  | expectedValue (found : Option String)
  | integerOutOfRange (token : String)
  | decimalOutOfRange (token : String)
  | invalidDecimal (token : String)
  | unexpected (token : String)
  | unclosed (found : Option String)
  | tooManyParentheses
  | tooHigh
  deriving DecidableEq, Repr

/-- How the place of a fault reads: a token, or the end of the rule. -/
def RuleFault.foundText : Option String → String
  | none => "end of rule"
  | some token => "'" ++ token ++ "'"

/-- The wording of a fault. -/
def RuleFault.message : RuleFault → String
  | expectedField found => "expected field name, found " ++ foundText found
  | expectedComparator => "expected comparator, found end of rule"
  | unsupportedComparator found => "unsupported comparator '" ++ found ++ "'"
  | expectedValue found => "expected value, found " ++ foundText found
  | integerOutOfRange token => "integer literal out of range: " ++ token
  | decimalOutOfRange token => "float literal out of range: " ++ token
  | invalidDecimal token => "invalid float literal: " ++ token
  | unexpected token => "unexpected token '" ++ token ++ "'"
  | unclosed found => "expected ')', found " ++ foundText found
  | tooManyParentheses => "parentheses nest deeper than " ++ toString maxDepth ++ " levels"
  | tooHigh => "rule nests deeper than " ++ toString maxDepth ++ " levels"

/-- What is wrong with data that is not in the form of a rule or of settings. -/
inductive DataFault where
  /-- The text is not JSON, or has not the required keys, types and numbers. -/
  | unreadable
  | operandWithChildren (field : String)
  | emptyField
  | unknownOperator (kind : String)
  | missingChild (op : LogicalOp)
  | mismatchedPayload (nodeType : String)
  | unknownNodeType (nodeType : String)
  | cacheEnabledNotBool
  | cacheCapacityNotCount
  deriving DecidableEq, Repr

/-- The wording of a fault; an unreadable text has none. -/
def DataFault.message? : DataFault → Option String
  | unreadable => none
  | operandWithChildren field =>
      some ("operand node '" ++ field ++ "' must not have children")
  | emptyField => some "operand node has an empty field name"
  | unknownOperator kind => some ("unknown operator kind '" ++ kind ++ "'")
  | missingChild op => some (op.keyword ++ " node must have two children")
  | mismatchedPayload nodeType => some (nodeType ++ " node has a mismatched value payload")
  | unknownNodeType nodeType => some ("unknown node type '" ++ nodeType ++ "'")
  | cacheEnabledNotBool => some "cache_enabled must be a bool"
  | cacheCapacityNotCount => some "cache_capacity must be a non-negative int"

/-- Why a rule cannot be stored. -/
inductive StorageFault where
  | blankName
  | nameTaken (name : String)
  deriving DecidableEq, Repr

/-- The wording of a fault. -/
def StorageFault.message : StorageFault → String
  | blankName => "rule name must not be empty"
  | nameTaken name => "rule already exists: " ++ name

/-- The error of an operation. -/
inductive Error where
  /-- No token can start at this character, `offset` bytes into the text. -/
  | unrecognized (offset : Nat) (char : Char)
  /-- The rule has no token. -/
  | emptyRule
  /-- The rule is faulty at a token; positions count from zero. -/
  | syntaxFault (position : Nat) (fault : RuleFault)
  /-- A comparator that is none of the three. -/
  | unsupportedComparator (symbol : String)
  /-- A value that cannot be compared with the literal. -/
  | typeMismatch (value literal : Kind)
  /-- The record has no such field. -/
  | missingField (field : String)
  /-- Stored or transmitted data is faulty. -/
  | faultyData (fault : DataFault)
  /-- An empty list of rules was to be combined. -/
  | noRules
  /-- The combined rule would be too high. -/
  | tooDeep (depth : Nat)
  /-- No rule has this name. -/
  | ruleNotFound (name : String)
  /-- The rule cannot be stored. -/
  | storage (fault : StorageFault)
  /-- A record entry of a type that no value has. -/
  | invalidRecordValue (field typeName : String)
  deriving DecidableEq, Repr

namespace Error

/-- The wording of an error, where it has one. -/
def message? : Error → Option String
  | unrecognized offset char =>
      some ("Unrecognized character '" ++ char.toString ++ "' at offset " ++ toString offset)
  | emptyRule => some "Empty rule"
  | syntaxFault position fault =>
      some ("Syntax error at token " ++ toString position ++ ": " ++ fault.message)
  | unsupportedComparator symbol => some ("Unsupported comparator: " ++ symbol)
  | typeMismatch value literal =>
      some ("Type mismatch: cannot compare " ++ value.name ++ " with " ++ literal.name)
  | missingField field => some ("Missing field: " ++ field)
  | faultyData fault => fault.message?.map ("Deserialization error: " ++ ·)
  | noRules => some "No rules to combine"
  | tooDeep depth =>
      some ("Rule nests " ++ toString depth ++ " levels deep, at most " ++ toString maxDepth ++
        " are supported")
  | ruleNotFound name => some ("Rule not found: " ++ name)
  | storage fault => some ("Storage error: " ++ fault.message)
  | invalidRecordValue field typeName =>
      some ("Invalid value for field " ++ field ++ ": unsupported type " ++ typeName)

/-- Whether the caller's input is at fault, and not stored data or the store. -/
def isClientError : Error → Bool
  | faultyData _ => false
  | storage _ => false
  | _ => true

end Error

end Rulebook
