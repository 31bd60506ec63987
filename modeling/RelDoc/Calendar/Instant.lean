import RelDoc.Calendar.Date
import RelDoc.Text.Classes

namespace RelDoc.Calendar

/-- A point of time: seconds since 1970 and the nanoseconds into that second. A leap second runs the
nanoseconds of the second before it past a thousand million. -/
structure Instant where
  seconds : Int
  nanos : Nat
deriving DecidableEq, Repr

namespace Instant

def ofMillis (ms : Int) : Instant := ⟨ms / 1000, (ms % 1000).toNat * 1000000⟩

def toMillis (t : Instant) : Int := t.seconds * 1000 + (t.nanos / 1000000 : Nat)

def date (t : Instant) : Date := Date.ofDays (t.seconds / 86400)

def secondOfDay (t : Instant) : Nat := (t.seconds % 86400).toNat

def fractionText (nanos : Nat) : String :=
  if nanos = 0 then ""
  else if nanos % 1000000 = 0 then "." ++ padded 3 (nanos / 1000000)
  else if nanos % 1000 = 0 then "." ++ padded 6 (nanos / 1000)
  else "." ++ padded 9 nanos

def text (zone : String) (t : Instant) : String :=
  let s := t.secondOfDay
  let leap := 1000000000 ≤ t.nanos
  let second := if leap then s % 60 + 1 else s % 60
  t.date.text ++ "T" ++ padded 2 (s / 3600) ++ ":" ++ padded 2 (s / 60 % 60) ++ ":" ++
    padded 2 second ++ fractionText (if leap then t.nanos - 1000000000 else t.nanos) ++ zone

def earliest : Instant := ⟨-31619087596800, 0⟩
def latest : Instant := ⟨31494784780799, 999999999⟩

def clamp (t : Instant) : Instant :=
  if t.seconds < earliest.seconds then earliest
  else if latest.seconds < t.seconds then latest
  else t

def spacedText (t : Instant) : String :=
  let s := t.secondOfDay
  let digits := ((padded 9 t.nanos).toList.reverse.dropWhile (· == '0')).reverse
  let fraction := if digits.isEmpty then "0" else String.ofList digits
  t.date.text ++ " " ++ padded 1 (s / 3600) ++ ":" ++ padded 2 (s / 60 % 60) ++ ":" ++
    padded 2 (s % 60) ++ "." ++ fraction ++ " +00:00:00"

end Instant

end RelDoc.Calendar
