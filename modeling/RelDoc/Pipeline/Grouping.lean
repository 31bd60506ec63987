import RelDoc.Path
import RelDoc.StoreError
import RelDoc.Value.Order

namespace RelDoc.Grouping

mutual

def evaluate (doc : Document) : Value → Value
  | .string s =>
    match reference? s with
    | some path => doc.firstValue path
    | none => .string s
  | .document fields => .document (evaluateFields doc fields [])
  | v => v
termination_by structural v => v

def evaluateFields (doc : Document) : List (String × Value) → Document → Document
  | [], out => out
  | (k, v) :: rest, out => evaluateFields doc rest (out.insert k (evaluate doc v))
termination_by structural fields => fields

end

inductive Accumulator where
  | first (value : Option Value)
  | last (value : Value)
  | sum (total : Float) (integral : Bool)
  | average (total : Float) (count : Nat)
  | min (value : Option Value)
  | max (value : Option Value)

namespace Accumulator

def initial : String → Except StoreError Accumulator
  | "$first" => .ok (.first none)
  | "$last" => .ok (.last .null)
  | "$sum" => .ok (.sum 0.0 true)
  | "$avg" => .ok (.average 0.0 0)
  | "$min" => .ok (.min none)
  | "$max" => .ok (.max none)
  | op => .error (.unsupported op)

def isDouble : Value → Bool
  | .double _ => true
  | _ => false

def isNull : Value → Bool
  | .null => true
  | _ => false

def improve (better : Ordering) (best : Option Value) (value : Value) : Option Value :=
  if isNull value then best
  else
    match best with
    | none => some value
    | some current => if value.order current == better then some value else best

def feed : Accumulator → Value → Accumulator
  | .first none, value => .first (some value)
  | .first best, _ => .first best
  | .last _, value => .last value
  | .sum total integral, value =>
    match value.numeric? with
    | some x => .sum (total + x) (integral && !isDouble value)
    | none => .sum total integral
  | .average total count, value =>
    match value.numeric? with
    | some x => .average (total + x) (count + 1)
    | none => .average total count
  | .min best, value => .min (improve .lt best value)
  | .max best, value => .max (improve .gt best value)

/-- A sum of integers is an integer as long as it lies between `-2 ^ 63` and `2 ^ 63`. -/
def finish : Accumulator → Value
  | .first value | .min value | .max value => value.getD .null
  | .last value => value
  | .sum total integral =>
    let whole := Decimal.truncate total
    if integral && total.isFinite && decide (whole.natAbs ≤ Int64.maxValue.toInt.toNat) then
      .int64 (.ofInt whole)
    else .double total
  | .average _ 0 => .null
  | .average total count => .double (total / Decimal.nearest count)

end Accumulator

structure Rule where
  name : String
  op : String
  expression : Value

def rule (name : String) : Value → Except StoreError Rule
  | .document [] => .error (.invalid (.emptyAccumulator name))
  | .document ((op, expression) :: _) =>
    (Accumulator.initial op).map fun _ => ⟨name, op, expression⟩
  | _ => .error (.invalid (.notAccumulator name))

def rules : List (String × Value) → Except StoreError (List Rule)
  | [] => .ok []
  | (name, spec) :: rest =>
    if name = "_id" then rules rest
    else do
      let r ← rule name spec
      pure (r :: (← rules rest))

abbrev Group := Value × List Document

def place (key : Value) (doc : Document) : List Group → List Group
  | [] => [(key, [doc])]
  | (k, docs) :: rest =>
    if k.looseEq key then (k, docs ++ [doc]) :: rest else (k, docs) :: place key doc rest

def partition (key : Document → Value) (docs : List Document) : List Group :=
  docs.foldl (fun groups doc => place (key doc) doc groups) []

def Rule.result (r : Rule) (docs : List Document) : Value :=
  match Accumulator.initial r.op with
  | .ok start => (docs.foldl (fun acc doc => acc.feed (evaluate doc r.expression)) start).finish
  | .error _ => .null

def row (rules : List Rule) (group : Group) : Document :=
  rules.foldl (fun out r => out.insert r.name (r.result group.2)) [("_id", group.1)]

def group (spec : Document) (docs : List Document) : Except StoreError (List Document) :=
  match spec.get? "_id" with
  | none => missing "$group" .id
  | some key => (rules spec).map fun rs => (partition (evaluate · key) docs).map (row rs)

end RelDoc.Grouping
