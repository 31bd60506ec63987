import RelDoc.Plan.Builder
import RelDoc.Settings

namespace RelDoc

structure Mutation where
  operations : Document
  guard : Option Clause

namespace Mutation

def columns (verb : String) (l : Literal) : Except QueryError Document :=
  match l.toValue with
  | .document d => .ok d
  | v => .error (.mutation (.notMap verb v.text))

def update (l : Literal) : Except QueryError Mutation := do
  let d ← columns "update" l
  pure ⟨if d.any fun field => isOperator field.1 then d else [("$set", .document d)], none⟩

def amount (l : Literal) : Except QueryError Value :=
  match l.toValue with
  | v@(.int32 _) | v@(.int64 _) | v@(.double _) => .ok v
  | v => .error (.mutation (.notNumeric v.text))

/-- The negated amount. The least 32-bit integer has a negation among the 64-bit ones, the least
64-bit integer has none. -/
def negated (v : Value) : Except QueryError Value :=
  match v with
  | .int32 n => .ok (if n = Int32.minValue then .int64 (.ofInt (-n.toInt)) else .int32 (-n))
  | .int64 n => if n = Int64.minValue then .error (.mutation (.noNegation n)) else .ok (.int64 (-n))
  | .double x => .ok (.double (-x))
  | v => .error (.mutation (.notNumeric v.text))

def incrementable (column : String) : Clause :=
  ⟨.and, .nested ((Plan.empty.filter (.compare column "exists" (.boolean false) false)).orFilter
    (.notNull column))⟩

def incrementBy (column : String) (amount : Value) (extra : Option Literal) :
    Except QueryError Mutation := do
  let set ← match extra with
    | some l => columns "increment extra columns" l
    | none => pure []
  pure ⟨[("$inc", .document [(column, amount)])] ++
    (if set.isEmpty then [] else [("$set", .document set)]), some (incrementable column)⟩

def increment (column : String) (l : Literal) (extra : Option Literal) :
    Except QueryError Mutation := do
  incrementBy column (← amount l) extra

def decrement (column : String) (l : Literal) (extra : Option Literal) :
    Except QueryError Mutation := do
  incrementBy column (← negated (← amount l)) extra

def pushOperator (unique : Bool) : String := if unique then "$addToSet" else "$push"

def single (op : String) (fields : Document) : Mutation := ⟨[(op, .document fields)], none⟩

def push (column : String) (l : Literal) (unique : Bool) : Mutation :=
  single (pushOperator unique)
    [(column, if l.isList then .document [("$each", l.toValue)] else l.toValue)]

def pushMany (l : Literal) (unique : Bool) : Except QueryError Mutation :=
  (columns "push" l).map (single (pushOperator unique))

def pull (column : String) (l : Literal) : Mutation :=
  single (if l.isList then "$pullAll" else "$pull") [(column, l.toValue)]

def pullMany (l : Literal) : Except QueryError Mutation := (columns "pull" l).map (single "$pull")

def drop (columns : List String) : Mutation :=
  single "$unset" (Document.ofFields (columns.map fun c => (c, .int32 1)))

def options (s : Settings) (caller : Document) : Document :=
  Document.merge [("multiple", .boolean s.multipleByDefault)] caller

end Mutation

end RelDoc
