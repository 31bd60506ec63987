import RelDoc.StoreError
import RelDoc.Text.Quoted

namespace RelDoc

inductive MutationFault where
  | notMap (verb got : String)
  | notNumeric (got : String)
  | noNegation (amount : Int64)
deriving DecidableEq, Repr

inductive SettingsFault where
  | emptyIdField
  | idFieldIsOperator (field : String)
  | emptyNaturalColumn
deriving DecidableEq, Repr

inductive QueryError where
  | unknownOperator (spelling : String)
  | unknownAggregate (name : String)
  | malformedRegex (text : String)
  | unwindPath (column : String)
  | mutation (fault : MutationFault)
  | notStreamable (strategy : String)
  | settings (fault : SettingsFault)
  | unreadable
  | store (e : StoreError)
deriving DecidableEq, Repr

def MutationFault.text : MutationFault → String
  | .notMap verb got => verb ++ " expects a map of columns, got " ++ got
  | .notNumeric got => "increment amount must be numeric, got " ++ got
  | .noNegation amount => "cannot decrement by " ++ toString amount.toInt

def SettingsFault.text : SettingsFault → String
  | .emptyIdField => "id_field must not be empty"
  | .idFieldIsOperator field => "id_field " ++ Text.quoted field ++ " must not start with '$'"
  | .emptyNaturalColumn => "natural_sort_column must not be empty"

namespace QueryError

def message : QueryError → String
  | .unknownOperator spelling => "unknown operator: " ++ spelling
  | .unknownAggregate name => "unknown aggregate function: " ++ name
  | .malformedRegex text =>
    "malformed regular expression " ++ Text.quoted text ++ ": expected /pattern/flags"
  | .unwindPath column =>
    "invalid unwind path " ++ Text.quoted column ++ ": only one '.*.' marker is supported"
  | .mutation fault => "invalid update: " ++ fault.text
  | .notStreamable strategy => strategy ++ " results cannot be consumed lazily"
  | .settings fault => "invalid configuration: " ++ fault.text
  | .unreadable => "serialization error"
  | .store e => e.message

def isProgramming : QueryError → Bool
  | .unknownOperator _ | .unknownAggregate _ | .malformedRegex _ | .unwindPath _
  | .mutation _ => true
  | _ => false

end QueryError

end RelDoc
