import RelDoc.Calendar.Reader
import RelDoc.Text.Digits
import RelDoc.Value.Basic
import RelDoc.Wire.Record

/-!
Stored values in JSON. What JSON can say is written as it is; other values are objects with a key
that names their type. Such a key ends an object, and fields before it do not count.
-/

namespace RelDoc

open Wire

namespace Value

def typed (key : String) (j : Json) : Json := .object [(key, j)]

def lowBytes : Nat → Nat → List UInt8
  | 0, _ => []
  | count + 1, n => UInt8.ofNat (n % 256) :: lowBytes count (n / 256)

def binaryJson (subtype : UInt8) (bs : List UInt8) : Json :=
  if subtype = 0 then .bytes bs
  else
    typed "$binary" <| .object
      [("base64", .string (String.ofList (Text.Base64.encode bs))),
        ("subType", .string (String.ofList (Text.Hex.encode 2 subtype.toNat)))]

mutual

def toJson : Value → Json
  | .null => .null
  | .undefined => typed "$undefined" (.boolean true)
  | .minKey => typed "$minKey" (.integer 1)
  | .maxKey => typed "$maxKey" (.integer 1)
  | .boolean b => .boolean b
  | .int32 n => .integer n.toInt
  | .int64 n => .integer n.toInt
  | .double x => .double x
  | .decimal128 bits => typed "$numberDecimalBytes" (.bytes (lowBytes 16 bits.toNat))
  | .string s => .string s
  | .symbol s => typed "$symbol" (.string s)
  | .code s => typed "$code" (.string s)
  | .objectId id => typed "$oid" (.string id.hex)
  | .binary subtype bs => binaryJson subtype bs
  | .date ms => typed "$date" (typed "$numberLong" (.string (toString ms.toInt)))
  | .timestamp time increment =>
    typed "$timestamp" (.object [("t", .integer time.toNat), ("i", .integer increment.toNat)])
  | .regex pattern options =>
    typed "$regularExpression"
      (.object [("pattern", .string pattern), ("options", .string options)])
  | .array items => .array (itemsJson items)
  | .document fields => .object (fieldsJson fields)
termination_by structural v => v

def itemsJson : List Value → List Json
  | [] => []
  | v :: rest => toJson v :: itemsJson rest
termination_by structural items => items

def fieldsJson : List (String × Value) → List (String × Json)
  | [] => []
  | (k, v) :: rest => (k, toJson v) :: fieldsJson rest
termination_by structural fields => fields

end

def typeKeys : List String :=
  ["$oid", "$date", "$numberInt", "$numberLong", "$binary", "$regularExpression", "$timestamp",
    "$symbol", "$undefined", "$minKey", "$maxKey", "$code", "$numberDecimalBytes"]

def numeral? (low high : Int) (s : String) : Option Int :=
  let (sign, digits) : Int × List Char := match s.toList with
    | '-' :: rest => (-1, rest)
    | '+' :: rest => (1, rest)
    | cs => (1, cs)
  if digits.isEmpty || !digits.all Char.isDigit then none
  else
    let n := sign * (digits.foldl (fun n c => 10 * n + (c.toNat - 48)) 0 : Nat)
    if low ≤ n ∧ n ≤ high then some n else none

def int32Numeral? (s : String) : Option Int32 :=
  (numeral? Int32.minValue.toInt Int32.maxValue.toInt s).map .ofInt

def int64Numeral? (s : String) : Option Int64 :=
  (numeral? Int64.minValue.toInt Int64.maxValue.toInt s).map .ofInt

def millis? : Json → Option Int64
  | .string s => (Calendar.Reader.instant? s.toList).map fun t => .ofInt t.toMillis
  | j => do
    let r ← Record.readExact? ["$numberLong"] j
    int64Numeral? (← r.required? "$numberLong" Json.string?)

def binary? (j : Json) : Option Value := do
  let r ← Record.readExact? ["base64", "subType"] j
  let text ← r.required? "base64" Json.string?
  let subtype ← r.required? "subType" Json.string?
  let bs ← Text.Base64.decode? text.toList
  if subtype.length = 2 then some (.binary (UInt8.ofNat (← Text.Hex.decode? subtype.toList)) bs)
  else none

def timestamp? (j : Json) : Option Value := do
  let r ← Record.readExact? ["t", "i"] j
  let time ← r.required? "t" (Json.integer? 0 (UInt32.size - 1))
  let increment ← r.required? "i" (Json.integer? 0 (UInt32.size - 1))
  some (.timestamp (.ofNat time.toNat) (.ofNat increment.toNat))

def regex? (j : Json) : Option Value := do
  let r ← Record.readExact? ["pattern", "options"] j
  let pattern ← r.required? "pattern" Json.string?
  let options ← r.required? "options" Json.string?
  some (.regex pattern (String.ofList (options.toList.mergeSort fun a b => a.toNat ≤ b.toNat)))

def ofLowBytes (bs : List UInt8) : Nat := bs.foldr (fun b n => 256 * n + b.toNat) 0

def decimal? (j : Json) : Option Value := do
  let bs ← j.list? Json.byte?
  if bs.length = 16 then some (.decimal128 (BitVec.ofNat 128 (ofLowBytes bs))) else none

def ofTyped? (key : String) (j : Json) : Option Value :=
  match key with
  | "$oid" => (j.string?.bind fun s => ObjectId.ofHex? s.toList).map .objectId
  | "$date" => (millis? j).map .date
  | "$numberInt" => (j.string?.bind int32Numeral?).map .int32
  | "$numberLong" => (j.string?.bind int64Numeral?).map .int64
  | "$binary" => binary? j
  | "$regularExpression" => regex? j
  | "$timestamp" => timestamp? j
  | "$symbol" => j.string?.map .symbol
  | "$code" => j.string?.map .code
  | "$undefined" => if j.boolean? = some true then some .undefined else none
  | "$minKey" => (j.integer? 1 1).map fun _ => .minKey
  | "$maxKey" => (j.integer? 1 1).map fun _ => .maxKey
  | "$numberDecimalBytes" => decimal? j
  | _ => none

def ofInteger? (n : Int) : Option Value :=
  (Json.int64? (.integer n)).map fun m => if 0 ≤ n then ofInt64 m else .int64 m

mutual

def ofJson? : Json → Option Value
  | .null => some .null
  | .boolean b => some (.boolean b)
  | .integer n => ofInteger? n
  | .double x => some (.double x)
  | .string s => some (.string s)
  | .array items => (itemsOf? items).map .array
  | .object fields => fieldsOf? [] fields
  | .unusable => none
termination_by structural j => j

def itemsOf? : List Json → Option (List Value)
  | [] => some []
  | j :: rest => do
    let v ← ofJson? j
    let vs ← itemsOf? rest
    some (v :: vs)
termination_by structural items => items

def fieldsOf? (d : Document) : List (String × Json) → Option Value
  | [] => some (.document d)
  | (k, j) :: rest =>
    if typeKeys.contains k then if rest.isEmpty then ofTyped? k j else none
    else do
      let v ← ofJson? j
      fieldsOf? (d.insert k v) rest
termination_by structural fields => fields

end

end Value

namespace Document

def toJson (d : Document) : Json := (Value.document d).toJson

def ofJson? : Json → Option Document
  | .object fields => (Value.fieldsOf? [] fields).bind Value.asDocument?
  | _ => none

end Document

end RelDoc
