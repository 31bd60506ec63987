import RelDoc.Pattern.Escape
import RelDoc.Wire.Number

namespace RelDoc.Wire

inductive Token where
  | openArray
  | closeArray
  | openObject
  | closeObject
  | comma
  | colon
  | string (s : Option String)
  | scalar (j : Json)

namespace Token

inductive Piece where
  | char (c : Char)
  | unit (n : Nat)

def shortEscape? : Char → Option Char
  | '"' => some '"'
  | '\\' => some '\\'
  | '/' => some '/'
  | 'b' => some '\x08'
  | 'f' => some '\x0c'
  | 'n' => some '\n'
  | 'r' => some '\r'
  | 't' => some '\t'
  | _ => none

def pieces? : List Char → Option (List Piece)
  | [] => some []
  | '\\' :: 'u' :: a :: b :: c :: d :: rest => do
    let n ← Text.Hex.decode? [a, b, c, d]
    pure (.unit n :: (← pieces? rest))
  | '\\' :: c :: rest => do
    let e ← shortEscape? c
    pure (.char e :: (← pieces? rest))
  | c :: rest =>
    if c = '\\' ∨ c.toNat < 0x20 then none else (pieces? rest).map (.char c :: ·)

def isHighUnit (n : Nat) : Bool := 0xD800 ≤ n && n < 0xDC00

def isLowUnit (n : Nat) : Bool := 0xDC00 ≤ n && n < 0xE000

def joined? : List Piece → Option (List Char)
  | [] => some []
  | .char c :: rest => (joined? rest).map (c :: ·)
  | .unit h :: .unit l :: rest =>
    if isHighUnit h && isLowUnit l then do
      let c ← Pattern.codePoint? (0x10000 + (h - 0xD800) * 0x400 + (l - 0xDC00))
      pure (c :: (← joined? rest))
    else do
      let c ← Pattern.codePoint? h
      pure (c :: (← joined? (.unit l :: rest)))
  | .unit n :: rest => do
    let c ← Pattern.codePoint? n
    pure (c :: (← joined? rest))

def ofQuoted? (cs : List Char) : Option Token :=
  (pieces? cs).map fun ps => .string ((joined? ps).map String.ofList)

def ofWord? (cs : List Char) : Option Token :=
  if cs = "null".toList then some (.scalar .null)
  else if cs = "true".toList then some (.scalar (.boolean true))
  else if cs = "false".toList then some (.scalar (.boolean false))
  else (Number.read? cs).map .scalar

def ofMark? : Char → Option Token
  | '[' => some .openArray
  | ']' => some .closeArray
  | '\x7b' => some .openObject
  | '\x7d' => some .closeObject
  | ',' => some .comma
  | ':' => some .colon
  | _ => none

def isBlank (c : Char) : Bool := c == ' ' || c == '\t' || c == '\n' || c == '\r'

inductive Place where
  | between
  | word (cs : List Char)
  | quoted (cs : List Char)
  | escaped (cs : List Char)

def begin (c : Char) : List Token × Place :=
  if isBlank c then ([], .between)
  else if c = '"' then ([], .quoted [])
  else
    match ofMark? c with
    | some t => ([t], .between)
    | none => ([], .word [c])

def isWordEnd (c : Char) : Bool := isBlank c || c == '"' || (ofMark? c).isSome

def step : Place → Char → Option (List Token × Place)
  | .between, c => some (begin c)
  | .word cs, c =>
    if isWordEnd c then
      (ofWord? cs.reverse).map fun t => (t :: (begin c).1, (begin c).2)
    else some ([], .word (c :: cs))
  | .quoted cs, c =>
    if c = '"' then (ofQuoted? cs.reverse).map fun t => ([t], .between)
    else if c = '\\' then some ([], .escaped (c :: cs))
    else some ([], .quoted (c :: cs))
  | .escaped cs, c => some ([], .quoted (c :: cs))

def tokens? : Place → List Char → Option (List Token)
  | .between, [] => some []
  | .word cs, [] => (ofWord? cs.reverse).map fun t => [t]
  | _, [] => none
  | place, c :: rest => do
    let (ts, place) ← step place c
    pure (ts ++ (← tokens? place rest))

end Token

end RelDoc.Wire
