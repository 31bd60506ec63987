import RelDoc.Fingerprint
import RelDoc.Mutation
import RelDoc.Plan.Builder
import RelDoc.Query.Request

namespace RelDoc

structure Query where
  plan : Plan
  settings : Settings
  writeOptions : Document

namespace Query

def make (settings : Settings) (plan : Plan) (writeOptions : Document) : Except QueryError Query :=
  match settings.check with
  | .ok () => .ok ⟨plan, settings, writeOptions⟩
  | .error fault => .error (.settings fault)

def strategy (q : Query) : Except QueryError Strategy := q.plan.strategy q.settings

def scope (q : Query) (change : Plan → Plan) : Query := { q with plan := change q.plan }

def withId (q : Query) (id : Literal) : Query :=
  q.scope (·.filter (.compare q.settings.idField "=" id false))

def get (q : Query) : Request ResultSet := .after q.strategy Strategy.request

def rows (q : Query) : Request (List Document) := q.get.map ResultSet.rows

def cursor (q : Query) : Request (List Document) := .after q.strategy Strategy.stream

def first (q : Query) : Request (Option Document) :=
  (q.scope (·.limitedTo 1)).rows.map List.head?

def find (q : Query) (id : Literal) : Request (Option Document) := (q.withId id).first

def nonempty (q : Query) : Request Bool := q.first.map Option.isSome

def value (q : Query) (column : String) : Request (Option Value) :=
  (q.scope (·.select [column])).first.map fun row => row.bind (·.first? column)

def pluck (q : Query) (column : String) : Request (List Value) :=
  (q.scope (·.select [column])).rows.map fun rows => rows.filterMap (·.first? column)

def keyOf (key : String) (row : Document) : Value :=
  match row.first? key with
  | some (.objectId id) => .string id.hex
  | some v => v
  | none => .null

def pluckWithKey (q : Query) (column key : String) : Request (List (Value × Value)) :=
  (q.scope (·.select [column, key])).rows.map fun rows =>
    rows.filterMap fun row => (row.first? column).map fun v => (keyOf key row, v)

def aggregateValue (q : Query) (function : AggregateFunction) (columns : List String) :
    Request (Option Value) :=
  (q.scope fun p => (p.select columns).aggregating function columns).rows.map fun rows =>
    rows.head?.bind (·.get? Plan.aggregateField)

def countOf : Option Value → Nat
  | some (.int32 n) => n.toInt.toNat
  | some (.int64 n) => n.toInt.toNat
  | some (.double x) =>
    if 0.0 < x then
      if x.isFinite then min (Decimal.truncate x).toNat (UInt64.size - 1) else UInt64.size - 1
    else 0
  | _ => 0

def count (q : Query) : Request Nat := (q.aggregateValue .count ["*"]).map countOf

def sum (q : Query) (column : String) : Request (Option Value) := q.aggregateValue .sum [column]

def average (q : Query) (column : String) : Request (Option Value) := q.aggregateValue .avg [column]

def minimum (q : Query) (column : String) : Request (Option Value) := q.aggregateValue .min [column]

def maximum (q : Query) (column : String) : Request (Option Value) := q.aggregateValue .max [column]

def valuesOf : ResultSet → List Value
  | .values _ vs => vs
  | .documents _ => []

def distinctValues (q : Query) (column : Option String) : Request (List Value) :=
  (q.scope (·.distinctOn column)).get.map valuesOf

def fingerprint (q : Query) (collection : String) : String := q.plan.fingerprint collection

def row (l : Literal) : Except QueryError Document := Mutation.columns "insert" l

def insert (rows : List Literal) : Request Bool :=
  .after (rows.mapM row) fun docs =>
    if docs.isEmpty then .settled (.ok true)
    else .issue (.insertMany docs) InsertReport.acknowledged

def insertGetId (l : Literal) : Request (Option Value) :=
  .after (row l) fun doc =>
    .issue (.insertOne doc) fun report => if report.acknowledged then report.ids.head? else none

def mutate (q : Query) (m : Mutation) : Request Nat :=
  .after (Scope.filter q.settings (q.plan.clauses ++ m.guard.toList)) fun filter =>
    .issue (.update filter m.operations (Mutation.options q.settings q.writeOptions))
      UpdateReport.affected

def update (q : Query) (l : Literal) : Request Nat := .after (Mutation.update l) q.mutate

def increment (q : Query) (column : String) (amount : Literal) (extra : Option Literal) :
    Request Nat :=
  .after (Mutation.increment column amount extra) q.mutate

def decrement (q : Query) (column : String) (amount : Literal) (extra : Option Literal) :
    Request Nat :=
  .after (Mutation.decrement column amount extra) q.mutate

def push (q : Query) (column : String) (l : Literal) (unique : Bool) : Request Nat :=
  q.mutate (Mutation.push column l unique)

def pull (q : Query) (column : String) (l : Literal) : Request Nat :=
  q.mutate (Mutation.pull column l)

def drop (q : Query) (columns : List String) : Request Nat := q.mutate (Mutation.drop columns)

def deletedOf (report : DeleteReport) : Nat := if report.acknowledged then report.deleted else 0

def delete (q : Query) : Request Nat :=
  .after (Scope.filter q.settings q.plan.clauses) fun filter => .issue (.delete filter) deletedOf

def deleteId (q : Query) (id : Literal) : Request Nat := (q.withId id).delete

def truncate : Request Bool := .issue (.delete []) DeleteReport.acknowledged

end Query

end RelDoc
