import RelDoc.Metered
import RelDoc.Plan.Strategy

namespace RelDoc

inductive Request (α : Type) : Type 1 where
  | settled (answer : Except QueryError α)
  | issue {β : Type} (command : Command β) (answer : β → α)

namespace Request

variable {α β : Type}

def map (f : α → β) : Request α → Request β
  | .settled answer => .settled (answer.map f)
  | .issue command answer => .issue command (f ∘ answer)

def after (x : Except QueryError α) (next : α → Request β) : Request β :=
  match x with
  | .ok a => next a
  | .error e => .settled (.error e)

def run (m : Metered) : Request α → Except QueryError α × Metered
  | .settled answer => (answer, m)
  | .issue command answer =>
    let (outcome, m) := m.run command
    ((outcome.map answer).mapError .store, m)

theorem run_settled (m : Metered) (answer : Except QueryError α) :
    (settled answer).run m = (answer, m) := rfl

end Request

inductive ResultSet where
  | documents (docs : List Document)
  | values (column : String) (vs : List Value)

namespace ResultSet

def length : ResultSet → Nat
  | .documents docs => docs.length
  | .values _ vs => vs.length

def rows : ResultSet → List Document
  | .documents docs => docs
  | .values column vs => vs.map fun v => [(column, v)]

def ofCount (n : Nat) : ResultSet :=
  .documents [[("_id", .null), (Plan.aggregateField, countValue n)]]

end ResultSet

namespace Strategy

def request : Strategy → Request ResultSet
  | .find filter options => .issue (.find filter options) .documents
  | .aggregate stages options =>
    .issue (.aggregate (stages.map Stage.toDocument) options) .documents
  | .distinct column filter => .issue (.distinct column filter) (.values column)
  | .count filter => .issue (.count filter) .ofCount

def stream : Strategy → Request (List Document)
  | .find filter options => .issue (.find filter options) id
  | .aggregate stages options => .issue (.aggregate (stages.map Stage.toDocument) options) id
  | s => .settled (.error (.notStreamable s.name))

end Strategy

end RelDoc
