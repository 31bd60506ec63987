import RelDoc.Plan.Scope

namespace RelDoc

def countValue (n : Nat) : Value := .int64 (.ofIntClamp n)

inductive Stage where
  | matching (filter : Document)
  | unwind (path : String)
  | group (spec : Document)
  | sort (spec : Document)
  | skip (n : UInt64)
  | limit (n : UInt64)
  | project (spec : Document)

namespace Stage

def name : Stage → String
  | .matching _ => "$match"
  | .unwind _ => "$unwind"
  | .group _ => "$group"
  | .sort _ => "$sort"
  | .skip _ => "$skip"
  | .limit _ => "$limit"
  | .project _ => "$project"

def argument : Stage → Value
  | .matching d | .group d | .sort d | .project d => .document d
  | .unwind path => .string ("$" ++ path)
  | .skip n | .limit n => countValue n.toNat

def toDocument (s : Stage) : Document := [(s.name, s.argument)]

end Stage

inductive Strategy where
  | find (filter options : Document)
  | aggregate (stages : List Stage) (options : Document)
  | distinct (column : String) (filter : Document)
  | count (filter : Document)

namespace Strategy

def name : Strategy → String
  | .find _ _ => "find"
  | .aggregate _ _ => "aggregate"
  | .distinct _ _ => "distinct"
  | .count _ => "count"

def isStreamable : Strategy → Bool
  | .find _ _ | .aggregate _ _ => true
  | _ => false

end Strategy

namespace Plan

/-- The parts of a column around `.*.`, which stands for the elements of an array. -/
def markerParts : List Char → List (List Char)
  | [] => [[]]
  | '.' :: '*' :: '.' :: rest => [] :: markerParts rest
  | c :: rest =>
    match markerParts rest with
    | [] => [[c]]
    | part :: more => (c :: part) :: more

def columnTarget (column : String) : Except QueryError (Option String × String) :=
  match markerParts column.toList with
  | [_] => .ok (none, column)
  | [array, inner] =>
    .ok (some (String.ofList array), String.ofList array ++ "." ++ String.ofList inner)
  | _ => .error (.unwindPath column)

def reference (column : String) : Value := .string ("$" ++ column)

def lastOf (column : String) : Value := .document [("$last", reference column)]

def flatName (column : String) : String :=
  String.ofList (column.toList.map fun c => if c = '.' then '_' else c)

def groupFields (p : Plan) : Document :=
  if p.groups.isEmpty then [("_id", .null)]
  else
    let key := Document.ofFields (p.groups.map fun c => (c, reference c))
    -- A column that is called `_id` takes the place of the key.
    Document.merge [("_id", .document key)]
      (p.groups.map (fun c => (c, lastOf c)) ++
        p.effectiveColumns.map fun c => (flatName c, lastOf c))

def aggregateField : String := "aggregate"

def aggregateRule (function : AggregateFunction) (targets : List String) : Option Value :=
  match function, targets.getLast? with
  | .count, _ => some (.document [("$sum", .int32 1)])
  | _, some path => some (.document [(function.accumulator, reference path)])
  | _, none => none

def sortFields (s : Settings) (p : Plan) : Document :=
  Document.ofFields (p.orders.map fun order =>
    (if order.1 = s.naturalSortColumn then "$natural" else order.1, order.2.sign))

def positive? (n : Option UInt64) : Option UInt64 := n.filter (· ≠ 0)

def nonempty? (d : Option Document) : Option Document := d.filter fun d => !d.isEmpty

def countsAll (p : Plan) : Bool :=
  match p.aggregate with
  | some ⟨.count, columns⟩ => columns.contains "*" && p.groups.isEmpty
  | _ => false

def aggregateStages (s : Settings) (p : Plan) (filter : Document) :
    Except QueryError (List Stage) := do
  let targets ← ((p.aggregate.map Aggregate.columns).getD []).mapM columnTarget
  let rule := p.aggregate.bind fun a => aggregateRule a.function (targets.map Prod.snd)
  let group := match rule with
    | some rule => p.groupFields.insert aggregateField rule
    | none => p.groupFields
  pure <|
    ((nonempty? filter).map Stage.matching).toList ++
      (targets.filterMap Prod.fst).map .unwind ++ [.group group] ++
      ((nonempty? (p.sortFields s)).map Stage.sort).toList ++
      ((positive? p.skip).map Stage.skip).toList ++
      ((positive? p.limit).map Stage.limit).toList ++
      ((nonempty? p.projection).map Stage.project).toList

def aggregateOptions (s : Settings) (p : Plan) : Document :=
  Document.merge [("typeMap", .document s.typeMap)] p.options

def findProjection (p : Plan) : Document :=
  Document.merge (Document.ofFields (p.effectiveColumns.map fun c => (c, .boolean true)))
    (p.projection.getD [])

def optionField (name : String) (v : Option Value) : Document := (v.map fun v => (name, v)).toList

def findOptions (s : Settings) (p : Plan) : Document :=
  Document.merge
    (optionField "maxTimeMS" (p.timeout.map (countValue ·.toNat)) ++
      optionField "sort" ((nonempty? (p.sortFields s)).map .document) ++
      optionField "skip" ((positive? p.skip).map (countValue ·.toNat)) ++
      optionField "limit" ((positive? p.limit).map (countValue ·.toNat)) ++
      optionField "hint" p.hint ++
      optionField "projection" ((nonempty? p.findProjection).map .document) ++
      [("typeMap", .document s.typeMap)])
    p.options

def strategyFor (s : Settings) (p : Plan) (filter : Document) : Except QueryError Strategy :=
  if !p.groups.isEmpty || p.aggregate.isSome then
    if p.countsAll then .ok (.count filter)
    else (p.aggregateStages s filter).map fun stages => .aggregate stages (p.aggregateOptions s)
  else if p.distinct then .ok (.distinct (p.effectiveColumns.head?.getD s.idField) filter)
  else .ok (.find filter (p.findOptions s))

def strategy (s : Settings) (p : Plan) : Except QueryError Strategy := do
  p.strategyFor s (← Scope.filter s p.clauses)

end Plan

end RelDoc
