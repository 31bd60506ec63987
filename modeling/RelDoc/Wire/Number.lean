import RelDoc.Decimal.Double
import RelDoc.Wire.Json

/-!
Numbers in JSON. An integer that fits 64 bits is exact. Any other number is read from the digits
that fit 64 bits and a power of ten, by one multiplication or division of doubles, so its last bit
can differ from that of the nearest double. A number beyond the largest double is unusable.
-/

namespace RelDoc.Wire.Number

def digitValue (c : Char) : Nat := c.toNat - 48

def absorb : Nat → List Char → Nat × List Char
  | n, [] => (n, [])
  | n, c :: rest =>
    let next := 10 * n + digitValue c
    if next < UInt64.size then absorb next rest else (n, c :: rest)

def power (n : Nat) : Float := Decimal.nearest (Nat.pow 10 n)

def scaled : Nat → Float → Int → Option Float
  | 0, _, _ => some 0.0
  | fuel + 1, x, e =>
    if 308 < e then if x == 0.0 then some x else none
    else if 0 ≤ e then
      let y := x * power e.toNat
      if y.isInf then none else some y
    else if -308 ≤ e then some (x / power (-e).toNat)
    -- No double is a larger power of ten, so smaller numbers are divided step by step.
    else scaled fuel (x / power 308) (e + 308)

def signed (negative : Bool) (x : Float) : Float := if negative then -x else x

def ofParts (negative : Bool) (significand : Nat) (e : Int) : Json :=
  match scaled 3 (Decimal.nearest significand) e with
  | some x => .double (signed negative x)
  | none => .unusable

def withExponent (negative : Bool) (significand : Nat) (e : Int) (below : Bool)
    (digits : List Char) : Option Json :=
  if digits.isEmpty || !digits.all Char.isDigit then none
  else
    let n := digits.foldl (fun n c => 10 * n + digitValue c) 0
    if n ≤ Int32.maxValue.toInt then
      some (ofParts negative significand (if below then e - n else e + n))
    -- Beyond 31 bits the exponent decides alone, unless all digits are zero.
    else if significand ≠ 0 ∧ !below then some .unusable
    else some (.double (signed negative 0.0))

def exponent (negative : Bool) (significand : Nat) (e : Int) : List Char → Option Json
  | [] => some (ofParts negative significand e)
  | c :: rest =>
    if c = 'e' ∨ c = 'E' then
      match rest with
      | '+' :: digits => withExponent negative significand e false digits
      | '-' :: digits => withExponent negative significand e true digits
      | digits => withExponent negative significand e false digits
    else none

def fraction (negative : Bool) (significand : Nat) (e : Int) (cs : List Char) : Option Json :=
  let digits := cs.takeWhile Char.isDigit
  if digits.isEmpty then none
  else
    let (significand, left) := absorb significand digits
    exponent negative significand (e - (digits.length - left.length : Nat))
      (cs.dropWhile Char.isDigit)

def whole (negative : Bool) (n : Nat) : Json :=
  if !negative then .integer n
  else if n = 0 ∨ -(n : Int) < Int64.minValue.toInt then .double (-(Decimal.nearest n))
  else .integer (-(n : Int))

def unsigned (negative : Bool) (cs : List Char) : Option Json :=
  let digits := cs.takeWhile Char.isDigit
  if digits.isEmpty || (digits.head? == some '0' && digits.length != 1) then none
  else
    let (significand, left) := absorb 0 digits
    match cs.dropWhile Char.isDigit with
    | [] =>
      some (if left.isEmpty then whole negative significand
        else ofParts negative significand left.length)
    | '.' :: rest => fraction negative significand left.length rest
    | rest => exponent negative significand left.length rest

def read? : List Char → Option Json
  | '-' :: rest => unsigned true rest
  | cs => unsigned false cs

end RelDoc.Wire.Number
