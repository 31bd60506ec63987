import RelDoc.Decimal.Double
import RelDoc.Value.Equality

/-!
The order of stored values. Values are ranked by type first; numbers of the three binary types
compare as doubles, whatever their type, and values that the order does not tell apart compare as
equal. Loose equality is equality up to the type of numbers.
-/

namespace RelDoc.Value

def numeric? : Value → Option Float
  | .int32 n => some (Decimal.nearest n.toInt)
  | .int64 n => some (Decimal.nearest n.toInt)
  | .double x => some x
  | _ => none

def rank : Value → Nat
  | .null | .undefined => 1
  | .int32 _ | .int64 _ | .double _ | .decimal128 _ => 2
  | .string _ | .symbol _ => 3
  | .document _ => 4
  | .array _ => 5
  | .binary _ _ => 6
  | .objectId _ => 7
  | .boolean _ => 8
  | .date _ | .timestamp _ _ => 9
  | .regex _ _ => 10
  | _ => 11

mutual

def looseEq : Value → Value → Bool
  | .array as, .array bs => looseEqItems as bs
  | .document as, .document bs => looseEqFields as bs
  | a, b =>
    match a.numeric?, b.numeric? with
    | some x, some y => x == y
    | _, _ => a.structEq b
termination_by structural a => a

def looseEqItems : List Value → List Value → Bool
  | [], [] => true
  | a :: as, b :: bs => looseEq a b && looseEqItems as bs
  | _, _ => false
termination_by structural as => as

def looseEqFields : List (String × Value) → List (String × Value) → Bool
  | [], [] => true
  | (k, a) :: as, (l, b) :: bs => k == l && looseEq a b && looseEqFields as bs
  | _, _ => false
termination_by structural as => as

end

def scalarOrder : Value → Value → Ordering
  | .string a, .string b => compare a b
  | .boolean a, .boolean b => compare a b
  | .date a, .date b => compare a.toInt b.toInt
  | .objectId a, .objectId b => compare a.bits.toNat b.bits.toNat
  | .binary _ a, .binary _ b => compare a b
  | a, b =>
    match a.numeric?, b.numeric? with
    | some x, some y => (Decimal.order? x y).getD .eq
    | _, _ => .eq

mutual

def order : Value → Value → Ordering
  | .array as, .array bs => orderItems as bs
  | .document as, .document bs => orderFields as bs
  | a, b => (compare a.rank b.rank).then (scalarOrder a b)
termination_by structural a => a

def orderItems : List Value → List Value → Ordering
  | [], [] => .eq
  | [], _ :: _ => .lt
  | _ :: _, [] => .gt
  | a :: as, b :: bs => (order a b).then (orderItems as bs)
termination_by structural as => as

def orderFields : List (String × Value) → List (String × Value) → Ordering
  | [], [] => .eq
  | [], _ :: _ => .lt
  | _ :: _, [] => .gt
  | (k, a) :: as, (l, b) :: bs => ((compare k l).then (order a b)).then (orderFields as bs)
termination_by structural as => as

end

def isTruthy : Value → Bool
  | .boolean b => b
  | .null | .undefined => false
  | v => (v.numeric?.map (· != 0.0)).getD true

def isFalsyFlag : Value → Bool
  | .boolean b => !b
  | v => (v.numeric?.map (· == 0.0)).getD false

end RelDoc.Value
