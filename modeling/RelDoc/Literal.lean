import RelDoc.Value.Text

namespace RelDoc

inductive Literal where
  | null
  | boolean (b : Bool)
  | integer (n : Int64)
  | float (x : Float)
  | string (s : String)
  | bytes (bs : List UInt8)
  | instant (t : Calendar.Instant)
  | array (items : List Literal)
  | map (pairs : List (String × Literal))
  | native (v : Value)
deriving Inhabited, Repr

namespace Literal

mutual

def toValue : Literal → Value
  | .null => .null
  | .boolean b => .boolean b
  | .integer n => Value.ofInt64 n
  | .float x => .double x
  | .string s => .string s
  | .bytes bs => .binary 0 bs
  | .instant t => .date (.ofInt t.toMillis)
  | .array items => .array (itemValues items)
  | .map pairs => .document (Document.ofFields (fieldValues pairs))
  | .native v => v
termination_by structural l => l

def itemValues : List Literal → List Value
  | [] => []
  | l :: rest => toValue l :: itemValues rest
termination_by structural items => items

def fieldValues : List (String × Literal) → List (String × Value)
  | [] => []
  | (k, l) :: rest => (k, toValue l) :: fieldValues rest
termination_by structural pairs => pairs

end

theorem fieldValues_eq_map (pairs : List (String × Literal)) :
    fieldValues pairs = pairs.map fun pair => (pair.1, pair.2.toValue) := by
  induction pairs with
  | nil => rfl
  | cons pair rest ih => simp [fieldValues, ih]

def isList : Literal → Bool
  | .array _ | .native (.array _) => true
  | _ => false

def text : Literal → String
  | .null => "NULL"
  | .boolean b => if b then "true" else "false"
  | .integer n => toString n.toInt
  | .float x => plainDouble.render x
  | .string s => "\"" ++ s ++ "\""
  | .bytes bs => "bytes[" ++ toString bs.length ++ "]"
  | .instant t => t.text "+00:00"
  | .array items => "array[" ++ toString items.length ++ "]"
  | .map pairs => "map[" ++ toString pairs.length ++ "]"
  | .native v => v.text

end Literal

namespace Identifier

def isPlainByte (b : UInt8) : Bool := (0x20 ≤ b && b ≤ 0x7E) || b == 9 || b == 10 || b == 13

def isUuid (bytes : List UInt8) : Bool := bytes.length == 16 && bytes.any fun b => !isPlainByte b

def utf8 (s : String) : List UInt8 := s.toUTF8.data.toList

def decoded? (bytes : List UInt8) : Option String := String.fromUTF8? ⟨bytes.toArray⟩

/-- Twenty-four hexadecimal digits are an object id, and some texts of sixteen bytes are UUIDs. -/
def ofString (s : String) : Value :=
  match ObjectId.ofHex? s.toList with
  | some id => .objectId id
  | none => if isUuid (utf8 s) then .binary 4 (utf8 s) else .string s

def ofBytes (bytes : List UInt8) : Value :=
  match decoded? bytes with
  | some s => ofString s
  | none => .binary (if isUuid bytes then 4 else 0) bytes

def normalize : Literal → Value
  | .string s | .native (.string s) => ofString s
  | .bytes bytes => ofBytes bytes
  | l => l.toValue

end Identifier

end RelDoc
