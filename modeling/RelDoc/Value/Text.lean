import RelDoc.Calendar.Instant
import RelDoc.Decimal.Layout
import RelDoc.Text.Digits
import RelDoc.Value.Basic

namespace RelDoc

def plainDouble : Decimal.Style where
  positional _ := true
  pointZero := false
  tie := .up
  nan := "NaN"
  infinity := "inf"
  minusInfinity := "-inf"

def braced (text : String) : String := "\x7b" ++ text ++ "\x7d"

def joined : List String → String
  | [] => ""
  | [s] => s
  | s :: rest => s ++ ", " ++ joined rest

namespace Value

mutual

def text : Value → String
  | .null => "null"
  | .undefined => "undefined"
  | .minKey => "MinKey"
  | .maxKey => "MaxKey"
  | .boolean b => if b then "true" else "false"
  | .int32 n => toString n.toInt
  | .int64 n => toString n.toInt
  | .double x => plainDouble.render x
  | .decimal128 bits => Decimal.wideText bits
  | .string s => "\"" ++ s ++ "\""
  | .symbol s => "Symbol(\"" ++ s ++ "\")"
  | .code s => s
  | .objectId id => "ObjectId(\"" ++ id.hex ++ "\")"
  | .binary subtype bytes =>
    "Binary(0x" ++ String.ofList (Text.Hex.natural subtype.toNat) ++ ", " ++
      String.ofList (Text.Base64.encode bytes) ++ ")"
  | .date ms => "DateTime(\"" ++ (Calendar.Instant.ofMillis ms.toInt).clamp.spacedText ++ "\")"
  | .timestamp time increment =>
    "Timestamp(" ++ toString time.toNat ++ ", " ++ toString increment.toNat ++ ")"
  | .regex pattern options => "/" ++ pattern ++ "/" ++ options
  | .array items => "[" ++ joined (itemTexts items) ++ "]"
  | .document [] => braced ""
  | .document fields => braced (" " ++ joined (fieldTexts fields) ++ " ")
termination_by structural v => v

def itemTexts : List Value → List String
  | [] => []
  | v :: rest => text v :: itemTexts rest
termination_by structural items => items

def fieldTexts : List (String × Value) → List String
  | [] => []
  | (k, v) :: rest => ("\"" ++ k ++ "\": " ++ text v) :: fieldTexts rest
termination_by structural fields => fields

end

end Value

end RelDoc
