import RelDoc.Literal
import RelDoc.Plan.Operator

namespace RelDoc

inductive Join where
  | and
  | or
deriving DecidableEq, Repr

inductive Direction where
  | ascending
  | descending
deriving DecidableEq, Repr

structure Aggregate where
  function : AggregateFunction
  columns : List String
deriving DecidableEq, Repr

mutual

inductive Condition where
  | compare (column operator : String) (value : Literal) (negated : Bool)
  | oneOf (column : String) (values : List Literal)
  | noneOf (column : String) (values : List Literal)
  | null (column : String)
  | notNull (column : String)
  | between (column : String) (low high : Literal) (negated : Bool)
  | all (column : String) (values : List Literal)
  | nested (plan : Plan)
  | raw (filter : Document)

structure Clause where
  join : Join
  condition : Condition

structure Plan where
  clauses : List Clause
  columns : List String
  projection : Option Document
  orders : List (String × Direction)
  groups : List String
  aggregate : Option Aggregate
  distinct : Bool
  skip : Option UInt64
  limit : Option UInt64
  timeout : Option UInt64
  hint : Option Value
  options : Document

end

def Condition.column? : Condition → Option String
  | .compare column _ _ _ | .oneOf column _ | .noneOf column _ | .null column | .notNull column
  | .between column _ _ _ | .all column _ => some column
  | .nested _ | .raw _ => none

def Plan.empty : Plan where
  clauses := []
  columns := []
  projection := none
  orders := []
  groups := []
  aggregate := none
  distinct := false
  skip := none
  limit := none
  timeout := none
  hint := none
  options := []

instance : Inhabited Plan := ⟨.empty⟩

def Plan.effectiveColumns (p : Plan) : List String :=
  if p.columns.contains "*" then [] else p.columns

namespace Direction

def ofText (s : String) : Direction :=
  if s.toList.map Char.toLower = ['a', 's', 'c'] then .ascending else .descending

def text : Direction → String
  | .ascending => "asc"
  | .descending => "desc"

def sign : Direction → Value
  | .ascending => .int32 1
  | .descending => .int32 (-1)

end Direction

namespace Join

def text : Join → String
  | .and => "and"
  | .or => "or"

end Join

end RelDoc
