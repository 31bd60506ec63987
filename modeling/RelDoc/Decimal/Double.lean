namespace RelDoc.Decimal

def nearest (n : Int) : Float := .ofModel (.ofInt n)

def natural? (x : Float) : Option Nat :=
  match x.toModel.unpack with
  | .zero _ => some 0
  | .finite .positive m e _ =>
    if 0 ≤ e then some (m <<< e.toNat)
    else if m % (1 <<< (-e).toNat) = 0 then some (m >>> (-e).toNat)
    else none
  | _ => none

def truncate (x : Float) : Int :=
  match x.toModel.unpack with
  | .finite sign m e _ => sign.apply (m <<< e.toNat >>> (-e).toNat)
  | _ => 0

def order? (x y : Float) : Option Ordering := x.toModel.compare y.toModel

inductive Tie where
  | even
  | up

structure Scaled where
  digits : Nat
  exponent : Int
deriving DecidableEq, Repr

def compareScaled (a : Nat) (i : Int) (b : Nat) (j : Int) : Ordering :=
  compare ((a * Nat.pow 10 i.toNat) <<< (-j).toNat) ((b * Nat.pow 10 (-i).toNat) <<< j.toNat)

def identifies (m : Nat) (e : Int) (a : Nat) (i : Int) : Bool :=
  let narrow := m = 1 <<< 52 ∧ e ≠ -1074
  let low := compareScaled a i (4 * m - if narrow then 1 else 2) (e - 2)
  let high := compareScaled a i (4 * m + 2) (e - 2)
  if m % 2 = 0 then low != .lt && high != .gt else low == .gt && high == .lt

def below (m : Nat) (e i : Int) : Nat :=
  ((m * Nat.pow 10 (-i).toNat) <<< e.toNat) / (Nat.pow 10 i.toNat <<< (-e).toNat)

def magnitude (m : Nat) (e : Int) : Int :=
  let guess := ((m.log2 : Int) + e) * 30103 / 100000
  if compareScaled 1 guess m e == .gt then guess
  else if compareScaled 1 (guess + 1) m e == .gt then guess + 1
  else guess + 2

def onGrid? (tie : Tie) (m : Nat) (e i : Int) : Option Scaled :=
  let a := below m e i
  match identifies m e a i, identifies m e (a + 1) i with
  | false, false => none
  | true, false => some ⟨a, i⟩
  | false, true => some ⟨a + 1, i⟩
  | true, true =>
    match compareScaled (2 * a + 1) i (2 * m) e, tie with
    | .gt, _ => some ⟨a, i⟩
    | .lt, _ => some ⟨a + 1, i⟩
    | .eq, .up => some ⟨a + 1, i⟩
    | .eq, .even => some ⟨if a % 2 = 0 then a else a + 1, i⟩

def strip : Nat → Scaled → Scaled
  | 0, s => s
  | fuel + 1, s =>
    if s.digits % 10 = 0 then strip fuel ⟨s.digits / 10, s.exponent + 1⟩ else s

/-- A positive double `m * 2 ^ e` stands for the reals that round to it. Decimals are tried with one
digit, two digits, and so on, and of the first that round to it the nearest is taken. -/
def shortest (tie : Tie) (m : Nat) (e : Int) : Scaled :=
  let k := magnitude m e
  -- Seventeen digits tell every double.
  let found := (List.range 17).findSome? fun (n : Nat) => onGrid? tie m e (k - (n + 1))
  strip 20 (found.getD ⟨(m * Nat.pow 5 (-e).toNat) <<< e.toNat, min e 0⟩)

end RelDoc.Decimal
