import RelDoc.Text.Digits

namespace RelDoc

structure ObjectId where
  bits : BitVec 96
deriving DecidableEq, Repr

namespace ObjectId

def hex (id : ObjectId) : String := String.ofList (Text.Hex.encode 24 id.bits.toNat)

def ofHex? (cs : List Char) : Option ObjectId :=
  if cs.length = 24 then (Text.Hex.decode? cs).map fun n => ⟨BitVec.ofNat 96 n⟩ else none

def stamp : BitVec 64 := 0x6d3fa91cb5e2470f#64

def generated (n : Nat) : ObjectId := ⟨(stamp ++ BitVec.ofNat 32 n : BitVec (64 + 32))⟩

end ObjectId

/-- What a document stores. Left out are code with a scope and pointers into other databases, which
no function tells from plain code. -/
inductive Value where
  | null
  | undefined
  | minKey
  | maxKey
  | boolean (b : Bool)
  | int32 (n : Int32)
  | int64 (n : Int64)
  | double (x : Float)
  | decimal128 (bits : BitVec 128)
  | string (s : String)
  | symbol (s : String)
  | code (s : String)
  | objectId (id : ObjectId)
  | binary (subtype : UInt8) (bytes : List UInt8)
  | date (millis : Int64)
  | timestamp (time increment : UInt32)
  | regex (pattern options : String)
  | array (items : List Value)
  | document (fields : List (String × Value))
deriving Inhabited, Repr

abbrev Document := List (String × Value)

namespace Document

def get? : Document → String → Option Value
  | [], _ => none
  | (k, v) :: rest, key => if k = key then some v else get? rest key

def contains (d : Document) (key : String) : Bool := (d.get? key).isSome

/-- A present key keeps its place, a new one goes to the end. -/
def insert : Document → String → Value → Document
  | [], key, value => [(key, value)]
  | (k, v) :: rest, key, value =>
    if k = key then (key, value) :: rest else (k, v) :: insert rest key value

def erase (d : Document) (key : String) : Document := d.filter fun field => field.1 ≠ key

def merge (d extra : Document) : Document :=
  extra.foldl (fun d field => d.insert field.1 field.2) d

def ofFields (fields : List (String × Value)) : Document := merge [] fields

def keys (d : Document) : List String := d.map Prod.fst

variable (d : Document) (key : String) (value : Value)

@[simp] theorem get?_insert : (d.insert key value).get? key = some value := by
  induction d with
  | nil => simp [insert, get?]
  | cons field rest ih =>
    obtain ⟨k, v⟩ := field
    by_cases h : k = key <;> simp [insert, get?, h, ih]

theorem get?_insert_of_ne {other : String} (h : key ≠ other) :
    (d.insert key value).get? other = d.get? other := by
  induction d with
  | nil => simp [insert, get?, h]
  | cons field rest ih =>
    obtain ⟨k, v⟩ := field
    by_cases hk : k = key
    · subst hk; simp [insert, get?, h]
    · simp [insert, get?, hk, ih]

theorem insert_insert (other : Value) :
    (d.insert key value).insert key other = d.insert key other := by
  induction d with
  | nil => simp [insert]
  | cons field rest ih =>
    obtain ⟨k, v⟩ := field
    by_cases h : k = key <;> simp [insert, h, ih]

theorem insert_get? (h : d.get? key = some value) : d.insert key value = d := by
  induction d with
  | nil => simp [get?] at h
  | cons field rest ih =>
    obtain ⟨k, v⟩ := field
    by_cases hk : k = key
    · simp_all [insert, get?]
    · simp only [get?, hk, if_false] at h
      simp [insert, hk, ih h]

@[simp] theorem get?_erase : (d.erase key).get? key = none := by
  induction d with
  | nil => rfl
  | cons field rest ih =>
    obtain ⟨k, v⟩ := field
    by_cases h : k = key <;> simp_all [erase, get?]

end Document

def isOperator (key : String) : Bool := key.toList.head? == some '$'

/-- A document is read as operators when its first key is one. -/
def Document.isOperators (d : Document) : Bool :=
  (d.head?.map fun field => isOperator field.1).getD false

def reference? (s : String) : Option String :=
  match s.toList with
  | '$' :: path => some (String.ofList path)
  | _ => none

namespace Value

def asArray? : Value → Option (List Value)
  | .array items => some items
  | _ => none

def asDocument? : Value → Option Document
  | .document fields => some fields
  | _ => none

def asString? : Value → Option String
  | .string s => some s
  | _ => none

def ofInt64 (n : Int64) : Value :=
  if -2147483648 ≤ n.toInt ∧ n.toInt ≤ 2147483647 then .int32 (.ofInt n.toInt) else .int64 n

def typeName : Value → String
  | .null => "Null"
  | .undefined => "Undefined"
  | .minKey => "MinKey"
  | .maxKey => "MaxKey"
  | .boolean _ => "Boolean"
  | .int32 _ => "Int32"
  | .int64 _ => "Int64"
  | .double _ => "Double"
  | .decimal128 _ => "Decimal128"
  | .string _ => "String"
  | .symbol _ => "Symbol"
  | .code _ => "JavaScriptCode"
  | .objectId _ => "ObjectId"
  | .binary _ _ => "Binary"
  | .date _ => "DateTime"
  | .timestamp _ _ => "Timestamp"
  | .regex _ _ => "RegularExpression"
  | .array _ => "Array"
  | .document _ => "EmbeddedDocument"

end Value

end RelDoc
