import RelDoc.Value.Basic

/-!
Dotted paths. A segment names a field of a document; in an array a numeral picks one element, and
any other segment fans out over the elements that are documents. Writing and removing go through
documents only.
-/

namespace RelDoc.Path

def pieces : List Char → List (List Char)
  | [] => [[]]
  | c :: rest =>
    if c = '.' then [] :: pieces rest
    else
      match pieces rest with
      | [] => [[c]]
      | piece :: more => (c :: piece) :: more

def segments (path : String) : List String := (pieces path.toList).map String.ofList

theorem pieces_ne_nil (cs : List Char) : pieces cs ≠ [] := by
  cases cs with
  | nil => simp [pieces]
  | cons c rest =>
    simp only [pieces]
    split
    · simp
    · split <;> simp

theorem pieces_append_dot (p q : List Char) : pieces (p ++ '.' :: q) = pieces p ++ pieces q := by
  induction p with
  | nil => simp [pieces]
  | cons c rest ih =>
    by_cases h : c = '.'
    · simp [pieces, h, ih]
    · simp only [List.cons_append, pieces, h, if_false, ih]
      cases hp : pieces rest with
      | nil => exact absurd hp (pieces_ne_nil rest)
      | cons piece more => simp

/-- The index that a segment stands for: digits, after an optional plus sign, below `2 ^ 64`. -/
def index? (segment : String) : Option Nat :=
  let digits := match segment.toList with
    | '+' :: rest => rest
    | cs => cs
  if digits.isEmpty || !digits.all Char.isDigit then none
  else
    let n := digits.foldl (fun n c => 10 * n + (c.toNat - 48)) 0
    if n < UInt64.size then some n else none

end RelDoc.Path

namespace RelDoc

def Value.step (segment : String) : Value → List Value
  | .document fields => (Document.get? fields segment).toList
  | .array items =>
    match Path.index? segment with
    | some i => items[i]?.toList
    | none => items.filterMap fun item =>
      match item with
      | .document fields => Document.get? fields segment
      | _ => none
  | _ => []

def Value.reach : List String → Value → List Value
  | [], v => [v]
  | segment :: rest, v => (v.step segment).flatMap (reach rest)

namespace Document

def lookup (d : Document) (path : String) : List Value :=
  (Value.document d).reach (Path.segments path)

def first? (d : Document) (path : String) : Option Value := (d.lookup path).head?

def firstValue (d : Document) (path : String) : Value := (d.first? path).getD .null

/-- Writes below a list of segments. What is not a document on the way gives way to one. -/
def setAt : List String → Value → Document → Document
  | [], _, d => d
  | [key], value, d => d.insert key value
  | key :: rest, value, d =>
    d.insert key <| .document <| setAt rest value <|
      match d.get? key with
      | some (.document inner) => inner
      | _ => []

def set (d : Document) (path : String) (value : Value) : Document :=
  setAt (Path.segments path) value d

def removeAt : List String → Document → Option Value × Document
  | [], d => (none, d)
  | [key], d => (d.get? key, d.erase key)
  | key :: rest, d =>
    match d.get? key with
    | some (.document inner) =>
      let (removed, inner) := removeAt rest inner
      (removed, d.insert key (.document inner))
    | _ => (none, d)

def removeReturning (d : Document) (path : String) : Option Value × Document :=
  removeAt (Path.segments path) d

def remove (d : Document) (path : String) : Document := (d.removeReturning path).2

end Document

theorem Value.reach_append (p q : List String) (v : Value) :
    v.reach (p ++ q) = (v.reach p).flatMap (Value.reach q) := by
  induction p generalizing v with
  | nil => simp [reach]
  | cons segment rest ih =>
    simp only [List.cons_append, reach, List.flatMap_assoc]
    exact congrArg (fun f => (v.step segment).flatMap f) (funext ih)

end RelDoc
