import RelDoc.Pattern.Escape
import RelDoc.QueryError
import RelDoc.Value.Text

namespace RelDoc.Pattern

namespace Like

inductive Token where
  | literal (c : Char)
  | anything
deriving DecidableEq, Repr

def tokens : List Char → List Token
  | [] => []
  | '\\' :: '%' :: rest => .literal '%' :: tokens rest
  | '%' :: rest => .anything :: tokens rest
  | c :: rest => .literal c :: tokens rest

def Token.pattern : Token → List Char
  | .literal c => escape [c]
  | .anything => ['.', '*']

def pattern (cs : List Char) : List Char :=
  (if cs.head? = some '%' then [] else ['^']) ++ (tokens cs).flatMap Token.pattern ++
    if cs.getLast? = some '%' then [] else ['$']

def source? : Value → Option String
  | .string s => some s
  | v@(.int32 _) | v@(.int64 _) | v@(.double _) | v@(.boolean _) => some v.text
  | _ => none

def regex (v : Value) : Except QueryError Value :=
  match source? v with
  | some s => .ok (.regex (String.ofList (pattern s.toList)) "i")
  | none => .error (.malformedRegex v.text)

end Like

namespace Delimited

def letters : List Char := "ABCDEFGHIJKLMNOPQRSTUVWXYZabcdefghijklmnopqrstuvwxyz".toList

def options (flags : List Char) : List Char := letters.filter flags.contains

def splitLast? (cs : List Char) : Option (List Char × List Char) :=
  match cs.reverse.dropWhile (· ≠ '/') with
  | [] => none
  | _ :: before => some (before.reverse, (cs.reverse.takeWhile (· ≠ '/')).reverse)

def parse? : List Char → Option (List Char × List Char)
  | '/' :: body => do
    let (pattern, flags) ← splitLast? body
    if flags.all letters.contains then some (pattern, options flags) else none
  | cs => some (cs, [])

def regex : Value → Except QueryError Value
  | .regex pattern options => .ok (.regex pattern options)
  | .string s =>
    match parse? s.toList with
    | some (pattern, options) => .ok (.regex (String.ofList pattern) (String.ofList options))
    | none => .error (.malformedRegex s)
  | v => .error (.malformedRegex v.text)

end Delimited

end RelDoc.Pattern
