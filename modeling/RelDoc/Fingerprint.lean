import RelDoc.Literal
import RelDoc.Text.Digits
import RelDoc.Wire.Plan

namespace RelDoc

namespace Sha256

structure State where
  a : UInt32
  b : UInt32
  c : UInt32
  d : UInt32
  e : UInt32
  f : UInt32
  g : UInt32
  h : UInt32

def initial : State :=
  ⟨0x6a09e667, 0xbb67ae85, 0x3c6ef372, 0xa54ff53a, 0x510e527f, 0x9b05688c, 0x1f83d9ab, 0x5be0cd19⟩

def constants : List UInt32 :=
  [0x428a2f98, 0x71374491, 0xb5c0fbcf, 0xe9b5dba5, 0x3956c25b, 0x59f111f1, 0x923f82a4, 0xab1c5ed5,
    0xd807aa98, 0x12835b01, 0x243185be, 0x550c7dc3, 0x72be5d74, 0x80deb1fe, 0x9bdc06a7, 0xc19bf174,
    0xe49b69c1, 0xefbe4786, 0x0fc19dc6, 0x240ca1cc, 0x2de92c6f, 0x4a7484aa, 0x5cb0a9dc, 0x76f988da,
    0x983e5152, 0xa831c66d, 0xb00327c8, 0xbf597fc7, 0xc6e00bf3, 0xd5a79147, 0x06ca6351, 0x14292967,
    0x27b70a85, 0x2e1b2138, 0x4d2c6dfc, 0x53380d13, 0x650a7354, 0x766a0abb, 0x81c2c92e, 0x92722c85,
    0xa2bfe8a1, 0xa81a664b, 0xc24b8b70, 0xc76c51a3, 0xd192e819, 0xd6990624, 0xf40e3585, 0x106aa070,
    0x19a4c116, 0x1e376c08, 0x2748774c, 0x34b0bcb5, 0x391c0cb3, 0x4ed8aa4a, 0x5b9cca4f, 0x682e6ff3,
    0x748f82ee, 0x78a5636f, 0x84c87814, 0x8cc70208, 0x90befffa, 0xa4506ceb, 0xbef9a3f7, 0xc67178f2]

def rotate (x n : UInt32) : UInt32 := (x >>> n) ||| (x <<< (32 - n))

def mix (w : UInt32 × UInt32) (s : State) : State :=
  let sum1 := rotate s.e 6 ^^^ rotate s.e 11 ^^^ rotate s.e 25
  let choice := (s.e &&& s.f) ^^^ (~~~s.e &&& s.g)
  let t1 := s.h + sum1 + choice + w.1 + w.2
  let sum0 := rotate s.a 2 ^^^ rotate s.a 13 ^^^ rotate s.a 22
  let majority := (s.a &&& s.b) ^^^ (s.a &&& s.c) ^^^ (s.b &&& s.c)
  ⟨t1 + sum0 + majority, s.a, s.b, s.c, s.d + t1, s.e, s.f, s.g⟩

def nextWord (ws : List UInt32) : UInt32 :=
  let x := ws.getD 1 0
  let y := ws.getD 14 0
  (rotate x 17 ^^^ rotate x 19 ^^^ (x >>> 10)) + ws.getD 6 0 +
    (rotate y 7 ^^^ rotate y 18 ^^^ (y >>> 3)) + ws.getD 15 0

def expand : Nat → List UInt32 → List UInt32
  | 0, ws => ws
  | count + 1, ws => expand count (nextWord ws :: ws)

def absorb (s : State) (block : List UInt32) : State :=
  let t := (constants.zip (expand 48 block.reverse).reverse).foldl (fun s w => mix w s) s
  ⟨s.a + t.a, s.b + t.b, s.c + t.c, s.d + t.d, s.e + t.e, s.f + t.f, s.g + t.g, s.h + t.h⟩

def bigEndian : Nat → Nat → List UInt8
  | 0, _ => []
  | count + 1, n => bigEndian count (n / 256) ++ [UInt8.ofNat (n % 256)]

def padded (message : List UInt8) : List UInt8 :=
  let zeros := (119 - message.length % 64) % 64
  message ++ [0x80] ++ List.replicate zeros 0 ++ bigEndian 8 (8 * message.length)

def words : List UInt8 → List UInt32
  | a :: b :: c :: d :: rest =>
    UInt32.ofNat (((a.toNat * 256 + b.toNat) * 256 + c.toNat) * 256 + d.toNat) :: words rest
  | _ => []

def blocks (ws : List UInt32) : List (List UInt32) :=
  (List.range (ws.length / 16)).map fun i => (ws.drop (16 * i)).take 16

def digest (message : List UInt8) : State := (blocks (words (padded message))).foldl absorb initial

def State.hex (s : State) : String :=
  let ws := [s.a, s.b, s.c, s.d, s.e, s.f, s.g, s.h]
  String.ofList (ws.flatMap fun w => Text.Hex.encode 8 w.toNat)

end Sha256

open Wire

namespace Plan

def shape (nameSpace : String) (p : Plan) : Json :=
  .array [.string nameSpace, .array (clausesJson p.clauses), .strings p.columns, .strings p.groups,
    .array (p.orders.map orderJson), .ofOption wordJson p.skip, .ofOption wordJson p.limit,
    .ofOption Aggregate.toJson p.aggregate]

def fingerprint (nameSpace : String) (p : Plan) : String :=
  (Sha256.digest (Identifier.utf8 (String.ofList (p.shape nameSpace).text))).hex

end Plan

def shortFingerprint (hex : String) : String := "fp_" ++ String.ofList (hex.toList.take 12)

end RelDoc
