import RelDoc.Decimal.Layout
import RelDoc.Text.Digits

namespace RelDoc.Wire

inductive Json where
  | null
  | boolean (b : Bool)
  | integer (n : Int)
  | double (x : Float)
  | string (s : String)
  | array (items : List Json)
  | object (fields : List (String × Json))
  /-- What can be skipped but not read: a string with half a surrogate pair, a number out of range,
  or nesting that is too deep. -/
  | unusable
deriving Inhabited

def maxDepth : Nat := 127

def doubleStyle : Decimal.Style where
  positional lead := -5 ≤ lead ∧ lead < 16
  pointZero := true
  tie := .even
  nan := "null"
  infinity := "null"
  minusInfinity := "null"

def escapedChar (c : Char) : List Char :=
  if c = '"' then ['\\', '"']
  else if c = '\\' then ['\\', '\\']
  else if c = '\x08' then ['\\', 'b']
  else if c = '\x0c' then ['\\', 'f']
  else if c = '\n' then ['\\', 'n']
  else if c = '\r' then ['\\', 'r']
  else if c = '\t' then ['\\', 't']
  else if c.toNat < 0x20 then ['\\', 'u'] ++ Text.Hex.encode 4 c.toNat
  else [c]

def stringText (s : String) : List Char := ['"'] ++ s.toList.flatMap escapedChar ++ ['"']

namespace Json

mutual

def text : Json → List Char
  | .null | .unusable => "null".toList
  | .boolean b => if b then "true".toList else "false".toList
  | .integer n => (toString n).toList
  | .double x => (doubleStyle.render x).toList
  | .string s => stringText s
  | .array items => ['['] ++ itemsText items ++ [']']
  | .object fields => ['\x7b'] ++ fieldsText fields ++ ['\x7d']
termination_by structural j => j

def itemsText : List Json → List Char
  | [] => []
  | [j] => text j
  | j :: rest => text j ++ [','] ++ itemsText rest
termination_by structural items => items

def fieldsText : List (String × Json) → List Char
  | [] => []
  | [(k, j)] => stringText k ++ [':'] ++ text j
  | (k, j) :: rest => stringText k ++ [':'] ++ text j ++ [','] ++ fieldsText rest
termination_by structural fields => fields

end

mutual

def isUsable : Json → Bool
  | .unusable => false
  | .array items => allUsable items
  | .object fields => fieldsUsable fields
  | _ => true
termination_by structural j => j

def allUsable : List Json → Bool
  | [] => true
  | j :: rest => isUsable j && allUsable rest
termination_by structural items => items

def fieldsUsable : List (String × Json) → Bool
  | [] => true
  | (_, j) :: rest => isUsable j && fieldsUsable rest
termination_by structural fields => fields

end

end Json

end RelDoc.Wire
