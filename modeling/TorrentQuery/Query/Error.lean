import TorrentQuery.Query.Operator

namespace TorrentQuery

open Number

inductive Fault where
  | emptyFilter
  | openQuote
  | gluedQuote
  | missingValue (field : String) (operator : Operator)
  | looseNegation
  | missingCondition
  | unmatchedOpening
  | unmatchedClosing
  deriving DecidableEq, Repr

def Fault.message : Fault → String
  | .emptyFilter => "empty filter"
  | .openQuote => "unterminated quoted value"
  | .gluedQuote => "expected whitespace after quoted value"
  | .missingValue field operator => "missing value after '" ++ field ++ operator.symbol ++ "'"
  | .looseNegation => "NOT must be followed by a '[ ... ]' group"
  | .missingCondition => "expected a condition"
  | .unmatchedOpening => "unbalanced '[' without matching ']'"
  | .unmatchedClosing => "unbalanced ']' without matching '['"

inductive SizeFault where
  | empty
  | invalidDigit
  | tooLarge
  deriving DecidableEq, Repr

def SizeFault.message : SizeFault → String
  | .empty => "cannot parse integer from empty string"
  | .invalidDigit => "invalid digit found in string"
  | .tooLarge => "number too large to fit in target type"

inductive ValueFault where
  | notBoolean
  | notNumber
  | size (fault : SizeFault)
  | notTime
  | integer (fault : IntegerError)
  | badRegex
  | kindLimit
  deriving DecidableEq, Repr

def ValueFault.message : ValueFault → String
  | .notBoolean => "expected a boolean (true/t/yes/y/1/+ or false/f/no/n/0/-)"
  | .notNumber => "expected a number"
  | .size fault => "bad size: " ++ fault.message
  | .notTime => "expected a UNIX timestamp, a delta like '2w3d', or a date like YYYY-MM-DD, " ++
      "MM/DD/YYYY or DD.MM.YYYY"
  | .integer fault => fault.message
  | .badRegex => "bad regex"
  | .kindLimit => "kind_N: N can't be greater than 100"

inductive QueryError where
  /-- The text is no filter; positions count characters. -/
  | malformed (input : String) (position : Nat) (fault : Fault)
  | unknownField (name : String) (suggestion : Option String)
  | invalidValue (field value : String) (fault : ValueFault)
  /-- The filter of this name has no order on its values. -/
  | unsupportedOperator (filter field : String) (operator : Operator)
  /-- An item could not tell the value of a field. -/
  | attribute (field reason : String)
  deriving DecidableEq, Repr

def QueryError.message : QueryError → String
  | .malformed input position fault =>
    "Syntax error in filter '" ++ input ++ "' at position " ++ toString position ++ ": " ++
      fault.message
  | .unknownField name none => "Unknown field '" ++ name ++ "'"
  | .unknownField name (some suggestion) =>
    "Unknown field '" ++ name ++ "', did you mean '" ++ suggestion ++ "'?"
  | .invalidValue field value fault =>
    "Invalid value '" ++ value ++ "' for field '" ++ field ++ "': " ++ fault.message
  | .unsupportedOperator filter field operator =>
    "Filter '" ++ filter ++ "' for field '" ++ field ++ "' does not support comparison '" ++
      operator.symbol ++ "'"
  | .attribute field reason => "Cannot read attribute '" ++ field ++ "': " ++ reason

end TorrentQuery
