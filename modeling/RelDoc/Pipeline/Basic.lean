import RelDoc.Filter
import RelDoc.Pipeline.Grouping

namespace RelDoc

namespace Sorting

abbrev Key := String × Bool

def keys : List (String × Value) → Except StoreError (List Key)
  | [] => .ok []
  | (field, direction) :: rest =>
    match direction.numeric? with
    | none => .error (.invalid (.directionNotNumeric field))
    | some d => (keys rest).map fun more =>
      if field = "$natural" then more else (field, decide (d < 0.0)) :: more

def compareBy (a b : Document) : List Key → Ordering
  | [] => .eq
  | (field, descending) :: rest =>
    let o := (a.firstValue field).order (b.firstValue field)
    (if descending then o.swap else o).then (compareBy a b rest)

def sort (spec : Document) (docs : List Document) : Except StoreError (List Document) :=
  (keys spec).map fun ks => docs.mergeSort fun a b => compareBy a b ks != .gt

end Sorting

namespace Document

/-- A projection takes fields away when all its fields but `_id` are switched off. -/
def isExclusion (spec : Document) : Bool :=
  !spec.isEmpty && spec.all fun field => field.1 == "_id" || field.2.isFalsyFlag

def select (d : Document) (out : Document) (field : String) (rule : Value) : Document :=
  if rule.isFalsyFlag then out
  else
    match rule.asString?.bind reference? with
    | some path => out.insert field (d.firstValue path)
    | none =>
      match d.first? field with
      | some value => out.set field value
      | none => out

def selectId (d spec : Document) : Document :=
  if ((spec.get? "_id").map Value.isFalsyFlag).getD false then []
  else ((d.get? "_id").map fun id => [("_id", id)]).getD []

def project (d spec : Document) : Document :=
  if isExclusion spec then spec.foldl (fun out field => out.remove field.1) d
  else
    (spec.filter fun field => field.1 ≠ "_id").foldl
      (fun out field => select d out field.1 field.2) (selectId d spec)

end Document

namespace Pipeline

def count (subject : String) (v : Value) : Except StoreError Nat :=
  match v.numeric?.bind Decimal.natural? with
  | some n => .ok (min n (UInt64.size - 1))
  | none => missing subject .count

def unwindPath (spec : Value) : Except StoreError String := do
  let text ← match spec with
    | .string s => .ok s
    | .document fields =>
      match (Document.get? fields "path").bind Value.asString? with
      | some s => .ok s
      | none => missing "$unwind" .path
    | _ => missing "$unwind" .stringOrDocument
  match reference? text with
  | some path => .ok path
  | none => .error (.invalid .unwindWithoutSign)

def unwound (path : String) (d : Document) : List Document :=
  let items := match d.first? path with
    | some (.array items) => items
    | some .null | none => []
    | some v => [v]
  items.map (d.set path)

def withDocument {α : Type} (name : String) (spec : Value)
    (f : Document → Except StoreError α) : Except StoreError α :=
  match spec.asDocument? with
  | some d => f d
  | none => missing name .document

def stage (name : String) (spec : Value) (docs : List Document) :
    Except StoreError (List Document) :=
  match name with
  | "$match" => withDocument name spec fun filter => Filter.select filter docs
  | "$unwind" => (unwindPath spec).map fun path => docs.flatMap (unwound path)
  | "$group" => withDocument name spec fun spec => Grouping.group spec docs
  | "$sort" => withDocument name spec fun spec => Sorting.sort spec docs
  | "$skip" => (count name spec).map docs.drop
  | "$limit" => (count name spec).map docs.take
  | "$project" => withDocument name spec fun spec => .ok (docs.map (·.project spec))
  | name => .error (.unsupported name)

def run : List Document → List Document → Except StoreError (List Document)
  | [], docs => .ok docs
  | [(name, spec)] :: rest, docs => do run rest (← stage name spec docs)
  | _ :: _, _ => .error (.invalid .stageKeys)

end Pipeline

end RelDoc
