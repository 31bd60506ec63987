import RelDoc.Wire.Json

namespace RelDoc.Wire

abbrev Record := List (String × Json)

namespace Record

def ofFields? (names : List String) (fields : List (String × Json)) : Option Record :=
  let known := fields.filter fun f => names.contains f.1
  if (known.map Prod.fst).Nodup then some known else none

def read? (names : List String) : Json → Option Record
  | .object fields => ofFields? names fields
  | .array items => if items.length = names.length then some (names.zip items) else none
  | _ => none

def readPartial? (names : List String) : Json → Option Record
  | .object fields => ofFields? names fields
  | .array items => if items.length ≤ names.length then some (names.zip items) else none
  | _ => none

def readExact? (names : List String) (j : Json) : Option Record :=
  match j with
  | .object fields =>
    if fields.all fun f => names.contains f.1 then ofFields? names fields else none
  | j => read? names j

variable {α : Type}

def required? (r : Record) (name : String) (read : Json → Option α) : Option α :=
  (r.lookup name).bind read

def optional? (r : Record) (name : String) (read : Json → Option α) : Option (Option α) :=
  match r.lookup name with
  | none | some .null => some none
  | some j => (read j).map some

def default? (r : Record) (name : String) (read : Json → Option α) (standard : α) : Option α :=
  match r.lookup name with
  | none => some standard
  | some j => read j

end Record

namespace Json

variable {α : Type}

def string? : Json → Option String
  | .string s => some s
  | _ => none

def boolean? : Json → Option Bool
  | .boolean b => some b
  | _ => none

def integer? (low high : Int) : Json → Option Int
  | .integer n => if low ≤ n ∧ n ≤ high then some n else none
  | _ => none

def word64? (j : Json) : Option UInt64 :=
  (j.integer? 0 (UInt64.size - 1)).map fun n => .ofNat n.toNat

def int64? (j : Json) : Option Int64 :=
  (j.integer? Int64.minValue.toInt Int64.maxValue.toInt).map .ofInt

def byte? (j : Json) : Option UInt8 := (j.integer? 0 255).map fun n => .ofNat n.toNat

def list? (read : Json → Option α) : Json → Option (List α)
  | .array items => items.mapM read
  | _ => none

def name? : Json → Option String
  | .string s => some s
  | .object [(s, .null)] => some s
  | _ => none

def strings (names : List String) : Json := .array (names.map .string)

def bytes (bs : List UInt8) : Json := .array (bs.map fun b => .integer b.toNat)

def ofOption (write : α → Json) : Option α → Json
  | none => .null
  | some a => write a

end Json

end RelDoc.Wire
