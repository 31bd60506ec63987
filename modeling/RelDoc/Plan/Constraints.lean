import RelDoc.Value.Basic

namespace RelDoc

inductive Constraint where
  | single (v : Value)
  | many (vs : List Value)

namespace Constraint

def values : Constraint → List Value
  | .single v => [v]
  | .many vs => vs

def toValue : Constraint → Value
  | .single v => v
  | .many vs => .array vs

/-- What a field of a filter asks. A list of filters need not be written as a list when it has one
entry. -/
def ofField (key : String) (v : Value) : Constraint :=
  if key = "$and" ∨ key = "$or" then .many (v.asArray?.getD [v]) else .single v

end Constraint

abbrev Constraints := List (String × Constraint)

namespace Constraints

def add : Constraints → String → Constraint → Constraints
  | [], key, c => [(key, c)]
  | (k, old) :: rest, key, c =>
    if k = key then (k, .many (old.values ++ c.values)) :: rest else (k, old) :: add rest key c

def merge (cs : Constraints) (fragment : Document) : Constraints :=
  fragment.foldl (fun cs field => cs.add field.1 (.ofField field.1 field.2)) cs

def toDocument (cs : Constraints) : Document := cs.map fun entry => (entry.1, entry.2.toValue)

@[simp] theorem merge_nil (cs : Constraints) : cs.merge [] = cs := rfl

end Constraints

end RelDoc
