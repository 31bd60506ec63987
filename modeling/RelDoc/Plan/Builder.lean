import RelDoc.Plan.Basic

namespace RelDoc.Plan

def addClause (clause : Clause) (p : Plan) : Plan := { p with clauses := p.clauses ++ [clause] }

def filter (condition : Condition) (p : Plan) : Plan := p.addClause ⟨.and, condition⟩

def orFilter (condition : Condition) (p : Plan) : Plan := p.addClause ⟨.or, condition⟩

def select (columns : List String) (p : Plan) : Plan := { p with columns }

def project (projection : Document) (p : Plan) : Plan :=
  { p with projection := some (Document.merge (p.projection.getD []) projection) }

def placeOrder (column : String) (direction : Direction) :
    List (String × Direction) → List (String × Direction)
  | [] => [(column, direction)]
  | (c, d) :: rest =>
    if c = column then (c, direction) :: rest else (c, d) :: placeOrder column direction rest

def orderBy (column : String) (direction : Direction) (p : Plan) : Plan :=
  { p with orders := placeOrder column direction p.orders }

def groupBy (columns : List String) (p : Plan) : Plan := { p with groups := p.groups ++ columns }

def aggregating (function : AggregateFunction) (columns : List String) (p : Plan) : Plan :=
  { p with aggregate := some ⟨function, columns⟩ }

def distinctOn (column : Option String) (p : Plan) : Plan :=
  { p with distinct := true, columns := (column.map fun c => [c]).getD p.columns }

def skipping (n : UInt64) (p : Plan) : Plan := { p with skip := some n }

def limitedTo (n : UInt64) (p : Plan) : Plan := { p with limit := some n }

def rowsBefore (page size : UInt64) : UInt64 :=
  .ofNatClamp ((page.toNat - 1) * size.toNat)

def page (page size : UInt64) (p : Plan) : Plan :=
  (p.skipping (rowsBefore page size)).limitedTo size

def isNull : Literal → Bool
  | .null => true
  | _ => false

/-- The rows after the one that `last` identifies, in the order of the column, which becomes the
last sort key. Null starts from the beginning. -/
def pageAfter (size : UInt64) (last : Literal) (column : String) (p : Plan) : Plan :=
  let p := { p with orders := p.orders.filter fun order => order.1 ≠ column }
  let p := if isNull last then p else p.filter (.compare column ">" last false)
  (p.orderBy column .ascending).limitedTo size

def withTimeout (ms : UInt64) (p : Plan) : Plan := { p with timeout := some ms }

def withHint (hint : Value) (p : Plan) : Plan := { p with hint := some hint }

def withOptions (options : Document) (p : Plan) : Plan :=
  { p with options := Document.merge p.options options }

end RelDoc.Plan
