import RelDoc.Path
import RelDoc.Pattern.Parser
import RelDoc.StoreError
import RelDoc.Value.Order

/-!
Filters. A filter is a document whose entries must all hold; an entry is a logical operator over
other filters or a condition on the values that a path reaches. A condition on an array holds when
it holds of the array itself or of one of its elements.
-/

namespace RelDoc.Filter

def regexFlags : List Char → Except StoreError Pattern.Flags
  | [] => .ok ⟨false, false, false, false⟩
  | c :: rest =>
    match c with
    | 'i' => do pure { ← regexFlags rest with ignoreCase := true }
    | 'm' => do pure { ← regexFlags rest with multiLine := true }
    | 's' => do pure { ← regexFlags rest with dotAll := true }
    | 'x' => do pure { ← regexFlags rest with verbose := true }
    | 'u' | 'l' => regexFlags rest
    | c => .error (.invalid (.unknownRegexOption c))

def regex (pattern options : String) : Except StoreError Pattern := do
  let flags ← regexFlags options.toList
  match Pattern.parse? flags pattern.toList with
  | some p => .ok p
  | none => .error (.invalid .badRegex)

def foundIn (p : Pattern) : Value → Bool
  | .string s => p.isFoundIn s
  | _ => false

def anyValue (test : Value → Bool) (candidates : List Value) : Bool :=
  candidates.any fun candidate => test candidate ||
    match candidate with
    | .array items => items.any test
    | _ => false

/-- Equality with an operand; a regular expression is searched for in strings, and where nothing is
reached only null is equal. -/
def equalsAny (candidates : List Value) (operand : Value) : Except StoreError Bool :=
  match candidates, operand with
  | [], .null => .ok true
  | [], _ => .ok false
  | _, .regex pattern options =>
    (regex pattern options).map fun p => anyValue (foundIn p) candidates
  | _, _ => .ok (anyValue (·.looseEq operand) candidates)

def rangeHolds (accept : Ordering → Bool) (operand candidate : Value) : Bool :=
  candidate.rank == operand.rank && accept (candidate.order operand)

def hasSize (size : Float) : Value → Bool
  | .array items => Decimal.nearest items.length == size
  | _ => false

def inList (candidates : List Value) (op : String) (operand : Value) : Except StoreError Bool :=
  match operand.asArray? with
  | some items => items.anyM (equalsAny candidates)
  | none => missing op .array

def allOf (candidates : List Value) (operand : Value) : Except StoreError Bool :=
  match operand.asArray? with
  | some items => if items.isEmpty then .ok false else items.allM (equalsAny candidates)
  | none => missing "$all" .array

def regexOf (options : String) (operand : Value) : Except StoreError Pattern :=
  match operand with
  | .string pattern => regex pattern options
  | .regex pattern options => regex pattern options
  | _ => missing "$regex" .pattern

def isDocument : Value → Bool
  | .document _ => true
  | _ => false

def elements : Value → List Value
  | .array items => items
  | _ => []

def plainOperatorHolds (whole : Document) (candidates : List Value) (op : String)
    (operand : Value) : Except StoreError Bool :=
  match op with
  | "$eq" => equalsAny candidates operand
  | "$ne" => (equalsAny candidates operand).map (!·)
  | "$gt" => .ok (anyValue (rangeHolds (· == .gt) operand) candidates)
  | "$gte" => .ok (anyValue (rangeHolds (· != .lt) operand) candidates)
  | "$lt" => .ok (anyValue (rangeHolds (· == .lt) operand) candidates)
  | "$lte" => .ok (anyValue (rangeHolds (· != .gt) operand) candidates)
  | "$in" => inList candidates op operand
  | "$nin" => (inList candidates op operand).map (!·)
  | "$exists" => .ok (candidates.isEmpty != operand.isTruthy)
  | "$all" => allOf candidates operand
  | "$size" =>
    match operand.numeric? with
    | some size => .ok (candidates.any (hasSize size))
    | none => missing op .number
  | "$regex" =>
    let options := ((whole.get? "$options").bind Value.asString?).getD ""
    (regexOf options operand).map fun p => anyValue (foundIn p) candidates
  | "$options" => .ok true
  | op => .error (.unsupported op)

mutual

def holds (doc : Document) : List (String × Value) → Except StoreError Bool
  | [] => .ok true
  | (key, condition) :: rest => do
    if ← entryHolds doc key condition then holds doc rest else pure false
termination_by structural fields => fields

def entryHolds (doc : Document) (key : String) : Value → Except StoreError Bool
  | .array items =>
    if key = "$and" ∨ key = "$or" ∨ key = "$nor" then
      -- Every filter of the list is looked at before the first one is evaluated.
      if items.all isDocument then
        if key = "$and" then allHold doc items
        else if key = "$or" then anyHolds doc items
        else (anyHolds doc items).map (!·)
      else .error (.invalid (.entryNotDocument key))
    else if isOperator key then .error (.unsupported key)
    else equalsAny (doc.lookup key) (.array items)
  | .document fields =>
    if key = "$and" ∨ key = "$or" ∨ key = "$nor" then missing key .array
    else if isOperator key then .error (.unsupported key)
    else if Document.isOperators fields then operatorsHold fields (doc.lookup key) fields
    else equalsAny (doc.lookup key) (.document fields)
  | condition =>
    if key = "$and" ∨ key = "$or" ∨ key = "$nor" then missing key .array
    else if isOperator key then .error (.unsupported key)
    else equalsAny (doc.lookup key) condition
termination_by structural condition => condition

def allHold (doc : Document) : List Value → Except StoreError Bool
  | [] => .ok true
  | .document fields :: rest => do
    if ← holds doc fields then allHold doc rest else pure false
  | _ :: rest => allHold doc rest
termination_by structural clauses => clauses

def anyHolds (doc : Document) : List Value → Except StoreError Bool
  | [] => .ok false
  | .document fields :: rest => do
    if ← holds doc fields then pure true else anyHolds doc rest
  | _ :: rest => anyHolds doc rest
termination_by structural clauses => clauses

def operatorsHold (whole : Document) (candidates : List Value) :
    List (String × Value) → Except StoreError Bool
  | [] => .ok true
  | (op, operand) :: rest => do
    if ← operatorHolds whole candidates op operand then operatorsHold whole candidates rest
    else pure false
termination_by structural ops => ops

def operatorHolds (whole : Document) (candidates : List Value) (op : String) :
    Value → Except StoreError Bool
  | .document fields =>
    if op = "$not" then
      (if Document.isOperators fields then operatorsHold fields candidates fields
        else equalsAny candidates (.document fields)).map (!·)
    else if op = "$elemMatch" then
      (candidates.flatMap elements).anyM fun item =>
        match item with
        | .document inner =>
          if Document.isOperators fields then operatorsHold fields [item] fields
          else holds inner fields
        | item => operatorsHold fields [item] fields
    else plainOperatorHolds whole candidates op (.document fields)
  | operand =>
    if op = "$not" then (equalsAny candidates operand).map (!·)
    else if op = "$elemMatch" then missing op .document
    else plainOperatorHolds whole candidates op operand
termination_by structural operand => operand

end

def conditionHolds (candidates : List Value) : Value → Except StoreError Bool
  | .document fields =>
    if Document.isOperators fields then operatorsHold fields candidates fields
    else equalsAny candidates (.document fields)
  | condition => equalsAny candidates condition

/-- A condition on one value that stands alone. A document is read as a filter on a document. -/
def valueHolds (value condition : Value) : Except StoreError Bool :=
  match value, condition with
  | .document inner, .document fields =>
    if Document.isOperators fields then operatorsHold fields [value] fields else holds inner fields
  | _, _ => conditionHolds [value] condition

def partition (filter : Document) :
    List Document → Except StoreError (List Document × List Document)
  | [] => .ok ([], [])
  | d :: rest => do
    let pass ← holds d filter
    let (passed, failed) ← partition filter rest
    pure (if pass then (d :: passed, failed) else (passed, d :: failed))

def select (filter : Document) (docs : List Document) : Except StoreError (List Document) :=
  (partition filter docs).map Prod.fst

end RelDoc.Filter
