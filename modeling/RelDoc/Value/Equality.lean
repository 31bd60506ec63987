import RelDoc.Value.Basic

namespace RelDoc.Value

mutual

def structEq : Value → Value → Bool
  | .null, .null => true
  | .undefined, .undefined => true
  | .minKey, .minKey => true
  | .maxKey, .maxKey => true
  | .boolean a, .boolean b => a == b
  | .int32 a, .int32 b => a == b
  | .int64 a, .int64 b => a == b
  | .double a, .double b => a == b
  | .decimal128 a, .decimal128 b => a == b
  | .string a, .string b => a == b
  | .symbol a, .symbol b => a == b
  | .code a, .code b => a == b
  | .objectId a, .objectId b => a == b
  | .binary s a, .binary t b => s == t && a == b
  | .date a, .date b => a == b
  | .timestamp t i, .timestamp u j => t == u && i == j
  | .regex p o, .regex q r => p == q && o == r
  | .array as, .array bs => structEqItems as bs
  | .document as, .document bs => as.length == bs.length && structEqFields as bs
  | _, _ => false
termination_by structural a => a

def structEqItems : List Value → List Value → Bool
  | [], [] => true
  | a :: as, b :: bs => structEq a b && structEqItems as bs
  | _, _ => false
termination_by structural as => as

def structEqFields : List (String × Value) → Document → Bool
  | [], _ => true
  | (k, a) :: as, bs =>
    (match bs.get? k with
      | some b => structEq a b
      | none => false) && structEqFields as bs
termination_by structural as => as

end

end RelDoc.Value

namespace RelDoc.Document

def structEq (a b : Document) : Bool := a.length == b.length && Value.structEqFields a b

end RelDoc.Document
