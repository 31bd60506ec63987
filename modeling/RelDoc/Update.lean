import RelDoc.Filter

namespace RelDoc.Update

/-- The sum of two numbers, in a wider integer type where the result needs one; nothing when one of
the two is no number. -/
def add? : Value → Value → Option Value
  | .int32 a, .int32 b =>
    let sum := a.toInt + b.toInt
    some (if -2147483648 ≤ sum ∧ sum ≤ 2147483647 then .int32 (.ofInt sum) else .int64 (.ofInt sum))
  | .int32 a, .int64 b => some (.int64 (a.toInt64 + b))
  | .int64 a, .int32 b => some (.int64 (a + b.toInt64))
  | .int64 a, .int64 b => some (.int64 (a + b))
  | .double a, .double b => some (.double (a + b))
  | .double a, .int32 b => some (.double (a + Decimal.nearest b.toInt))
  | .double a, .int64 b => some (.double (a + Decimal.nearest b.toInt))
  | .int32 a, .double b => some (.double (Decimal.nearest a.toInt + b))
  | .int64 a, .double b => some (.double (Decimal.nearest a.toInt + b))
  | _, _ => none

def increment (d : Document) (path : String) (amount : Value) : Except StoreError Document :=
  match d.first? path with
  | none =>
    match amount.numeric? with
    | some _ => .ok (d.set path amount)
    | none => .error (.invalid (.amountNotNumeric path))
  | some current =>
    match add? current amount with
    | some sum => .ok (d.set path sum)
    | none => .error (.cannotIncrement path current.typeName)

def additions (argument : Value) : Except StoreError (List Value) :=
  match argument with
  | .document fields =>
    match Document.get? fields "$each" with
    | none => .ok [argument]
    | some (.array items) => .ok items
    | some _ => missing "$each" .array
  | _ => .ok [argument]

def appendNew (items : List Value) (value : Value) : List Value :=
  if items.any (·.looseEq value) then items else items ++ [value]

def push (unique : Bool) (d : Document) (path : String) (argument : Value) :
    Except StoreError Document := do
  let new ← additions argument
  let place (items : List Value) : Document :=
    d.set path (.array (if unique then new.foldl appendNew items else items ++ new))
  match d.first? path with
  | none => .ok (place [])
  | some (.array items) => .ok (place items)
  | some current => .error (.cannotPush path current.typeName)

def reject (test : Value → Except StoreError Bool) : List Value → Except StoreError (List Value)
  | [] => .ok []
  | item :: rest => do
    let drop ← test item
    let kept ← reject test rest
    pure (if drop then kept else item :: kept)

def pull (test : Value → Except StoreError Bool) (d : Document) (path : String) :
    Except StoreError Document :=
  match d.first? path with
  | some (.array items) => (reject test items).map fun kept => d.set path (.array kept)
  | _ => .ok d

def pullAll (d : Document) (path : String) (argument : Value) : Except StoreError Document :=
  match argument.asArray? with
  | some values => pull (fun item => .ok (values.any (item.looseEq ·))) d path
  | none => missing "$pullAll" .array

def edit (op : String) (d : Document) (path : String) (argument : Value) :
    Except StoreError Document :=
  match op with
  | "$set" => .ok (d.set path argument)
  | "$unset" => .ok (d.remove path)
  | "$inc" => increment d path argument
  | "$push" => push false d path argument
  | "$addToSet" => push true d path argument
  | "$pull" => pull (Filter.valueHolds · argument) d path
  | "$pullAll" => pullAll d path argument
  | op => .error (if isOperator op then .unsupported op else .invalid (.notOperator op))

def editAll (op : String) : List (String × Value) → Document → Document × Except StoreError Unit
  | [], d => (d, .ok ())
  | (path, argument) :: rest, d =>
    match edit op d path argument with
    | .ok d => editAll op rest d
    | .error e => (d, .error e)

def run : List (String × Value) → Document → Document × Except StoreError Unit
  | [], d => (d, .ok ())
  | (op, .document fields) :: rest, d =>
    match editAll op fields d with
    | (d, .ok ()) => run rest d
    | (d, .error e) => (d, .error e)
  | (op, _) :: _, d => (d, missing op .fields)

def apply (update d : Document) : Document × Except StoreError Bool :=
  let (after, outcome) := run update d
  (after, outcome.map fun _ => !Document.structEq after d)

def applied (update d : Document) : Except StoreError (Document × Bool) :=
  let (after, outcome) := apply update d
  outcome.map fun changed => (after, changed)

end RelDoc.Update
