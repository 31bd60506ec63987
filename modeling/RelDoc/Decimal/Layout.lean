import RelDoc.Decimal.Double

namespace RelDoc.Decimal

structure Style where
  positional : Int → Bool
  pointZero : Bool
  tie : Tie
  nan : String
  infinity : String
  minusInfinity : String

def zeros (n : Nat) : String := String.ofList (List.replicate n '0')

def positionalText (pointZero : Bool) (s : Scaled) : String :=
  let ds := Nat.toDigits 10 s.digits
  let whole := (ds.length : Int) + s.exponent
  if 0 ≤ s.exponent then
    String.ofList ds ++ zeros s.exponent.toNat ++ if pointZero then ".0" else ""
  else if 0 < whole then
    String.ofList (ds.take whole.toNat) ++ "." ++ String.ofList (ds.drop whole.toNat)
  else
    "0." ++ zeros (-whole).toNat ++ String.ofList ds

def exponentText (s : Scaled) : String :=
  let ds := Nat.toDigits 10 s.digits
  let e := (ds.length : Int) + s.exponent - 1
  let fraction := if ds.length = 1 then "" else "." ++ String.ofList (ds.drop 1)
  let sign := if e < 0 then "e-" else "e+"
  String.ofList (ds.take 1) ++ fraction ++ sign ++ String.ofList (Nat.toDigits 10 e.natAbs)

def Style.magnitudeText (style : Style) (m : Nat) (e : Int) : String :=
  if m = 0 then if style.pointZero then "0.0" else "0"
  else
    let s := shortest style.tie m e
    let lead := ((Nat.toDigits 10 s.digits).length : Int) + s.exponent - 1
    if style.positional lead then positionalText style.pointZero s else exponentText s

def signText : Float.Model.UnpackedFloat.Sign → String
  | .positive => ""
  | .negative => "-"

def Style.render (style : Style) (x : Float) : String :=
  match x.toModel.unpack with
  | .notANumber => style.nan
  | .infinity .positive => style.infinity
  | .infinity .negative => style.minusInfinity
  | .zero sign => signText sign ++ style.magnitudeText 0 0
  | .finite sign m e _ => signText sign ++ style.magnitudeText m e

/-- The text of a 128-bit decimal. Fourteen bits under the sign hold the exponent, biased by 6176,
and 113 bits the coefficient; a second form, marked by two set bits, moves both and leaves only
coefficients that are out of range, which count as zero. -/
def wideText (bits : BitVec 128) : String :=
  let sign := if bits.msb then "-" else ""
  let special := bits.extractLsb' 122 5
  if special = 31 then "NaN"
  else if special = 30 then sign ++ "Infinity"
  else
    let shifted := bits.extractLsb' 125 2 = 3
    let exponent : Int := (bits.extractLsb' (if shifted then 111 else 113) 14).toNat - 6176
    let raw := if shifted then 0 else (bits.extractLsb' 0 113).toNat
    let ds := Nat.toDigits 10 (if raw < Nat.pow 10 34 then raw else 0)
    let adjusted := exponent + ds.length - 1
    if exponent = 0 then sign ++ String.ofList ds
    else if exponent < 0 ∧ -6 ≤ adjusted then sign ++ positionalText false
      ⟨ds.foldl (fun n c => 10 * n + (c.toNat - 48)) 0, exponent⟩
    else
      let fraction := if ds.length = 1 then "" else "." ++ String.ofList (ds.drop 1)
      let mark := if adjusted < 0 then "E-" else "E+"
      sign ++ String.ofList (ds.take 1) ++ fraction ++ mark ++ toString adjusted.natAbs

end RelDoc.Decimal
