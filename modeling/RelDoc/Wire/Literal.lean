import RelDoc.Decimal.Double
import RelDoc.Literal
import RelDoc.Wire.Value

namespace RelDoc.Literal

open Wire

mutual

def toJson : Literal → Json
  | .null => .string "null"
  | .boolean b => .object [("bool", .boolean b)]
  | .integer n => .object [("int", .integer n.toInt)]
  | .float x => .object [("float", .double x)]
  | .string s => .object [("string", .string s)]
  | .bytes bs => .object [("bytes", .bytes bs)]
  | .instant t => .object [("date_time", .string (t.text "Z"))]
  | .array items => .object [("array", .array (itemsJson items))]
  | .map pairs => .object [("map", .array (pairsJson pairs))]
  | .native v => .object [("native", v.toJson)]
termination_by structural l => l

def itemsJson : List Literal → List Json
  | [] => []
  | l :: rest => toJson l :: itemsJson rest
termination_by structural items => items

def pairsJson : List (String × Literal) → List Json
  | [] => []
  | (k, l) :: rest => .array [.string k, toJson l] :: pairsJson rest
termination_by structural pairs => pairs

end

def ofPlain? (kind : String) (j : Json) : Option Literal :=
  match kind, j with
  | "null", .null | "null", .object [] => some .null
  | "bool", .boolean b => some (.boolean b)
  | "int", j => (Json.int64? j).map .integer
  | "float", .double x => some (.float x)
  | "float", .integer n => some (.float (Decimal.nearest n))
  | "string", .string s => some (.string s)
  | "bytes", j => (j.list? Json.byte?).map .bytes
  | "date_time", .string s => (Calendar.Reader.instant? s.toList).map .instant
  | "native", j => (Value.ofJson? j).map .native
  | _, _ => none

mutual

def ofJson? : Json → Option Literal
  | .string s => if s = "null" then some .null else none
  | .object [(kind, j)] => ofContent? kind j
  | _ => none
termination_by structural j => j

def ofContent? (kind : String) : Json → Option Literal
  | .array items =>
    if kind = "array" then (itemsOf? items).map .array
    else if kind = "map" then (pairsOf? items).map .map
    else ofPlain? kind (.array items)
  | j => ofPlain? kind j
termination_by structural j => j

def itemsOf? : List Json → Option (List Literal)
  | [] => some []
  | j :: rest => do
    let l ← ofJson? j
    let ls ← itemsOf? rest
    some (l :: ls)
termination_by structural items => items

def pairsOf? : List Json → Option (List (String × Literal))
  | [] => some []
  | .array [.string k, j] :: rest => do
    let l ← ofJson? j
    let pairs ← pairsOf? rest
    some ((k, l) :: pairs)
  | _ => none
termination_by structural items => items

end

end RelDoc.Literal
