import RelDoc.Plan.Basic
import RelDoc.Wire.Literal
import RelDoc.Wire.Nesting

namespace RelDoc

open Wire

namespace Aggregate

def toJson (a : Aggregate) : Json :=
  .object [("function", .string a.function.text), ("columns", .strings a.columns)]

def functionOf? : String → Option AggregateFunction
  | "count" => some .count
  | "sum" => some .sum
  | "avg" => some .avg
  | "min" => some .min
  | "max" => some .max
  | _ => none

def ofJson? (j : Json) : Option Aggregate := do
  let r ← Record.read? ["function", "columns"] j
  let function ← r.required? "function" fun j => j.name?.bind functionOf?
  let columns ← r.required? "columns" (Json.list? Json.string?)
  some ⟨function, columns⟩

end Aggregate

namespace Join

def ofJson? (j : Json) : Option Join :=
  match j.name? with
  | some "and" => some .and
  | some "or" => some .or
  | _ => none

end Join

namespace Plan

def orderJson (order : String × Direction) : Json := .array [.string order.1, .string order.2.text]

def order? : Json → Option (String × Direction)
  | .array [.string column, direction] =>
    match direction.name? with
    | some "asc" => some (column, .ascending)
    | some "desc" => some (column, .descending)
    | _ => none
  | _ => none

def wordJson (n : UInt64) : Json := .integer n.toNat

def conditionJson (type : String) (fields : List (String × Json)) : Json :=
  .object (("type", .string type) :: fields)

def columnField (column : String) : String × Json := ("column", .string column)

def literalsJson (ls : List Literal) : Json := .array (ls.map Literal.toJson)

def fieldsJson (clauses : Json) (p : Plan) : List (String × Json) :=
  [("clauses", clauses), ("columns", .strings p.columns),
    ("projection", .ofOption Document.toJson p.projection),
    ("orders", .array (p.orders.map orderJson)), ("groups", .strings p.groups),
    ("aggregate", .ofOption Aggregate.toJson p.aggregate), ("distinct", .boolean p.distinct),
    ("skip", .ofOption wordJson p.skip), ("limit", .ofOption wordJson p.limit),
    ("timeout_ms", .ofOption wordJson p.timeout), ("hint", .ofOption Value.toJson p.hint),
    ("options", p.options.toJson)]

end Plan

mutual

def Condition.toJson : Condition → Json
  | .compare column operator value negated =>
    Plan.conditionJson "basic" [Plan.columnField column, ("operator", .string operator),
      ("value", value.toJson), ("negate", .boolean negated)]
  | .oneOf column values =>
    Plan.conditionJson "in" [Plan.columnField column, ("values", Plan.literalsJson values)]
  | .noneOf column values =>
    Plan.conditionJson "not_in" [Plan.columnField column, ("values", Plan.literalsJson values)]
  | .null column => Plan.conditionJson "null" [Plan.columnField column]
  | .notNull column => Plan.conditionJson "not_null" [Plan.columnField column]
  | .between column low high negated =>
    Plan.conditionJson "between" [Plan.columnField column, ("low", low.toJson),
      ("high", high.toJson), ("negate", .boolean negated)]
  | .all column values =>
    Plan.conditionJson "all" [Plan.columnField column, ("values", Plan.literalsJson values)]
  | .nested plan => Plan.conditionJson "nested" [("subplan", plan.toJson)]
  | .raw filter => Plan.conditionJson "raw" [("native", filter.toJson)]
termination_by structural c => c

def Clause.toJson : Clause → Json
  | ⟨join, condition⟩ => .object [("boolean", .string join.text), ("kind", condition.toJson)]
termination_by structural c => c

def Plan.clausesJson : List Clause → List Json
  | [] => []
  | clause :: rest => clause.toJson :: Plan.clausesJson rest
termination_by structural clauses => clauses

def Plan.toJson : Plan → Json
  | p@{ clauses, .. } => .object (Plan.fieldsJson (.array (Plan.clausesJson clauses)) p)
termination_by structural p => p

end

namespace Plan

theorem toJson_eq (p : Plan) : p.toJson = .object (fieldsJson (.array (clausesJson p.clauses)) p) := by
  cases p
  rfl

def text (p : Plan) : String := String.ofList p.toJson.text

def tagged? : Json → Option (String × Json)
  | .object fields =>
    match fields.filter fun f => f.1 = "type" with
    | [(_, .string type)] => some (type, .object (fields.filter fun f => f.1 ≠ "type"))
    | _ => none
  | .array (.string type :: items) => some (type, .array items)
  | _ => none

def simpleCondition? (type : String) (j : Json) : Option Condition := do
  let r ← Record.read? (match type with
    | "basic" => ["column", "operator", "value", "negate"]
    | "in" | "not_in" | "all" => ["column", "values"]
    | "null" | "not_null" => ["column"]
    | "between" => ["column", "low", "high", "negate"]
    | _ => ["native"]) j
  let column := r.required? "column" Json.string?
  let values := r.required? "values" (Json.list? Literal.ofJson?)
  let negated := r.required? "negate" Json.boolean?
  match type with
  | "basic" =>
    some (.compare (← column) (← r.required? "operator" Json.string?)
      (← r.required? "value" Literal.ofJson?) (← negated))
  | "in" => some (.oneOf (← column) (← values))
  | "not_in" => some (.noneOf (← column) (← values))
  | "null" => some (.null (← column))
  | "not_null" => some (.notNull (← column))
  | "between" =>
    some (.between (← column) (← r.required? "low" Literal.ofJson?)
      (← r.required? "high" Literal.ofJson?) (← negated))
  | "all" => some (.all (← column) (← values))
  | "raw" => some (.raw (← r.required? "native" Document.ofJson?))
  | _ => none

def condition? (readPlan : Json → Option Plan) (j : Json) : Option Condition :=
  if j.isUsable then
    match tagged? j with
    | some ("nested", rest) =>
      (Record.read? ["subplan"] rest).bind fun r =>
        (r.required? "subplan" readPlan).map .nested
    | some (type, rest) => simpleCondition? type rest
    | none => none
  else none

def clause? (readPlan : Json → Option Plan) (j : Json) : Option Clause := do
  let r ← Record.read? ["boolean", "kind"] j
  let join ← r.required? "boolean" Join.ofJson?
  let condition ← r.required? "kind" (condition? readPlan)
  some ⟨join, condition⟩

def fieldNames : List String :=
  ["clauses", "columns", "projection", "orders", "groups", "aggregate", "distinct", "skip", "limit",
    "timeout_ms", "hint", "options"]

def ofRecord? (readPlan : Json → Option Plan) (r : Record) : Option Plan := do
  let clauses ← r.required? "clauses" (Json.list? (clause? readPlan))
  let columns ← r.required? "columns" (Json.list? Json.string?)
  let projection ← r.optional? "projection" Document.ofJson?
  let orders ← r.required? "orders" (Json.list? order?)
  let groups ← r.required? "groups" (Json.list? Json.string?)
  let aggregate ← r.optional? "aggregate" Aggregate.ofJson?
  let distinct ← r.required? "distinct" Json.boolean?
  let skip ← r.optional? "skip" Json.word64?
  let limit ← r.optional? "limit" Json.word64?
  let timeout ← r.optional? "timeout_ms" Json.word64?
  let hint ← r.optional? "hint" Value.ofJson?
  let options ← r.required? "options" Document.ofJson?
  some
    { clauses, columns, projection, orders, groups, aggregate, distinct, skip, limit, timeout, hint,
      options }

def ofNested? : Nat → Json → Option Plan
  | 0, _ => none
  | depth + 1, j => (Record.read? fieldNames j).bind (ofRecord? (ofNested? depth))

def ofJson? (j : Json) : Option Plan := ofNested? maxDepth j

def parse (text : String) : Except QueryError Plan :=
  match (Json.parse? text.toList).bind ofJson? with
  | some p => .ok p
  | none => .error .unreadable

end Plan

end RelDoc
