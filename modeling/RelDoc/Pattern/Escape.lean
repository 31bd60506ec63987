import RelDoc.Pattern.Basic
import RelDoc.Text.Digits

namespace RelDoc.Pattern

structure Flags where
  ignoreCase : Bool
  multiLine : Bool
  dotAll : Bool
  verbose : Bool

inductive Escaped where
  | char (c : Char)
  | set (s : CharSet)
  | assertion (a : Assertion)

def isMeta (c : Char) : Bool :=
  "\\.+*?()|[]\x7b\x7d^$#&-~".toList.contains c

def isEscapable (c : Char) : Bool :=
  isMeta c || (c.toNat < 128 && !c.isAlphanum && c != '<' && c != '>')

def codePoint? (n : Nat) : Option Char :=
  if h : n.isValidChar then some (Char.ofNatAux n h) else none

def hexEscape (width : Nat) (cs : List Char) : Option (Char × List Char) :=
  match cs with
  | '\x7b' :: rest => do
    let digits := rest.takeWhile (· != '\x7d')
    if digits.isEmpty || digits.length == rest.length then none
    else some (← codePoint? (← Text.Hex.decode? digits), rest.drop (digits.length + 1))
  | _ => do
    let digits := cs.take width
    if digits.length < width then none
    else some (← codePoint? (← Text.Hex.decode? digits), cs.drop width)

def escaped? : List Char → Option (Escaped × List Char)
  | [] => none
  | c :: rest =>
    match c with
    | 'd' => some (.set .digit, rest)
    | 'D' => some (.set (.compl .digit), rest)
    | 's' => some (.set .blank, rest)
    | 'S' => some (.set (.compl .blank), rest)
    | 'w' => some (.set .word, rest)
    | 'W' => some (.set (.compl .word), rest)
    | 'x' => (hexEscape 2 rest).map fun (c, rest) => (.char c, rest)
    | 'u' => (hexEscape 4 rest).map fun (c, rest) => (.char c, rest)
    | 'U' => (hexEscape 8 rest).map fun (c, rest) => (.char c, rest)
    | 'a' => some (.char '\x07', rest)
    | 'f' => some (.char '\x0c', rest)
    | 't' => some (.char '\t', rest)
    | 'n' => some (.char '\n', rest)
    | 'r' => some (.char '\r', rest)
    | 'v' => some (.char '\x0b', rest)
    | 'A' => some (.assertion .textStart, rest)
    | 'z' => some (.assertion .textEnd, rest)
    | 'b' => some (.assertion .wordEdge, rest)
    | 'B' => some (.assertion .notWordEdge, rest)
    | c => if isEscapable c then some (.char c, rest) else none

def escape (cs : List Char) : List Char :=
  cs.flatMap fun c => if isMeta c then ['\\', c] else [c]

def skipComment : List Char → List Char
  | [] => []
  | c :: rest => if c = '\n' then rest else skipComment rest

theorem length_skipComment_le (cs : List Char) : (skipComment cs).length ≤ cs.length := by
  induction cs with
  | nil => simp [skipComment]
  | cons c rest ih =>
    simp only [skipComment]
    split
    · simp
    · exact Nat.le_succ_of_le ih

def skip (verbose : Bool) : List Char → List Char
  | [] => []
  | c :: rest =>
    if !verbose then c :: rest
    else if Text.isBlank c then skip verbose rest
    else if c = '#' then skip verbose (skipComment rest)
    else c :: rest
termination_by cs => cs.length
decreasing_by
  · simp
  · have := length_skipComment_le rest; simp; omega

end RelDoc.Pattern
