import RelDoc.Calendar.Instant

namespace RelDoc.Calendar.Reader

open RelDoc.Text

abbrev Step (α : Type) := List Char → Option (α × List Char)

def digitValue (c : Char) : Nat := c.toNat - 48

def valueOf (ds : List Char) : Nat := ds.foldl (fun n c => 10 * n + digitValue c) 0

def number (width : Nat) : Step Nat := fun cs =>
  let cs := trimLeft cs
  let ds := (cs.take width).takeWhile Char.isDigit
  if ds.isEmpty then none else some (valueOf ds, cs.drop ds.length)

def separator (c : Char) : Step Unit := fun cs =>
  match trimLeft cs with
  | d :: rest => if c = d then some ((), rest) else none
  | [] => none

def year : Step Int := fun cs =>
  match trimLeft cs with
  | '-' :: rest => if (rest.head?.map Char.isDigit).getD false then
      (number rest.length rest).map fun (n, r) => (-(n : Int), r) else none
  | '+' :: rest => if (rest.head?.map Char.isDigit).getD false then
      (number rest.length rest).map fun (n, r) => ((n : Int), r) else none
  | rest => (number 4 rest).map fun (n, r) => ((n : Int), r)

def fraction : Step Nat := fun cs =>
  match cs with
  | '.' :: rest =>
    let ds := rest.takeWhile Char.isDigit
    if ds.isEmpty then none
    else
      let kept := ds.take 9
      some (valueOf kept * Nat.pow 10 (9 - kept.length), rest.drop ds.length)
  | rest => some (0, rest)

def twoDigits : Step Nat := fun cs =>
  match cs with
  | a :: b :: rest => if a.isDigit && b.isDigit then some (valueOf [a, b], rest) else none
  | _ => none

def offset : Step Int := fun cs =>
  let signed (sign : Int) (rest : List Char) : Option (Int × List Char) := do
    let (h, rest) ← twoDigits rest
    let (m, rest) ← twoDigits (rest.dropWhile fun c => c = ':' || isBlank c)
    if m < 60 ∧ h * 3600 + m * 60 < 86400 then some (sign * (h * 3600 + m * 60 : Nat), rest)
    else none
  match trimLeft cs with
  | 'Z' :: rest | 'z' :: rest => some (0, rest)
  | '+' :: rest => signed 1 rest
  | '-' :: rest | '\u2212' :: rest => signed (-1) rest
  | a :: b :: c :: rest =>
    if [a, b, c].map Char.toLower = ['u', 't', 'c'] then some (0, rest) else none
  | _ => none

def date : Step Date := fun cs => do
  let (y, cs) ← year cs
  let ((), cs) ← separator '-' cs
  let (m, cs) ← number 2 cs
  let ((), cs) ← separator '-' cs
  let (d, cs) ← number 2 cs
  let date : Date := ⟨y, m, d⟩
  if date.isValid && -262143 ≤ y && y ≤ 262142 then some (date, cs) else none

def time : Step (Nat × Nat) := fun cs => do
  let (h, cs) ← number 2 cs
  let ((), cs) ← separator ':' cs
  let (m, cs) ← number 2 cs
  let ((), cs) ← separator ':' cs
  let (s, cs) ← number 2 cs
  let (nanos, cs) ← fraction cs
  if h < 24 ∧ m < 60 ∧ s ≤ 60 then
    some (if s = 60 then (h * 3600 + m * 60 + 59, nanos + 1000000000)
      else (h * 3600 + m * 60 + s, nanos), cs)
  else none

def instant? (cs : List Char) : Option Instant := do
  let (d, cs) ← date cs
  match cs with
  | c :: rest =>
    if c = 'T' ∨ c = 't' ∨ c = ' ' then
      let ((s, nanos), rest) ← time rest
      let (east, rest) ← offset rest
      if (trimLeft rest).isEmpty then some ⟨d.toDays * 86400 + s - east, nanos⟩ else none
    else none
  | [] => none

end RelDoc.Calendar.Reader
