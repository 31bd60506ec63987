namespace RelDoc

inductive Need where
  | array
  | number
  | pattern
  | document
  | fields
  | count
  | path
  | stringOrDocument
  | id
deriving DecidableEq, Repr

inductive Fault where
  | missing (subject : String) (need : Need)
  | entryNotDocument (operator : String)
  | unknownRegexOption (letter : Char)
  | badRegex
  | notOperator (key : String)
  | amountNotNumeric (path : String)
  | stageKeys
  | directionNotNumeric (field : String)
  | unwindWithoutSign
  | notAccumulator (field : String)
  | emptyAccumulator (field : String)
deriving DecidableEq, Repr

inductive StoreError where
  | invalid (fault : Fault)
  | unsupported (operator : String)
  | cannotIncrement (path typeName : String)
  | cannotPush (path typeName : String)
  | offline (collection : String)
deriving DecidableEq, Repr

def Need.text : Need → String
  | .array => "an array"
  | .number => "a number"
  | .pattern => "a pattern"
  | .document => "a document"
  | .fields => "a document of fields"
  | .count => "a non-negative integer"
  | .path => "a path"
  | .stringOrDocument => "a string or document"
  | .id => "an _id"

def Fault.text : Fault → String
  | .missing subject need => subject ++ " requires " ++ need.text
  | .entryNotDocument operator => operator ++ " entries must be documents"
  | .unknownRegexOption letter => "unknown regex option '" ++ String.singleton letter ++ "'"
  | .badRegex => "bad regular expression"
  | .notOperator key => "update document key '" ++ key ++ "' is not an operator"
  | .amountNotNumeric path => "$inc amount for '" ++ path ++ "' must be numeric"
  | .stageKeys => "pipeline stage must have exactly one key"
  | .directionNotNumeric field => "sort direction for '" ++ field ++ "' must be numeric"
  | .unwindWithoutSign => "$unwind path must start with '$'"
  | .notAccumulator field => "group field '" ++ field ++ "' must be an accumulator"
  | .emptyAccumulator field => "group field '" ++ field ++ "' is empty"

namespace StoreError

def message : StoreError → String
  | .invalid fault => "invalid command: " ++ fault.text
  | .unsupported operator => "unsupported operator: " ++ operator
  | .cannotIncrement path typeName =>
    "type mismatch at '" ++ path ++ "': cannot apply $inc to a value of type " ++ typeName
  | .cannotPush path typeName =>
    "type mismatch at '" ++ path ++ "': cannot push onto a value of type " ++ typeName
  | .offline collection => "backend unavailable: collection '" ++ collection ++ "' is offline"

end StoreError

def missing {α : Type} (subject : String) (need : Need) : Except StoreError α :=
  .error (.invalid (.missing subject need))

end RelDoc
