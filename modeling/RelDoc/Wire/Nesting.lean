import RelDoc.Wire.Token

namespace RelDoc.Wire

inductive Frame where
  | items (js : List Json)
  | fields (fs : List (Option String × Json)) (key : Option String)

inductive Expecting where
  | value (stack : List Frame)
  | firstItem (stack : List Frame)
  | nextItem (js : List Json) (stack : List Frame)
  | firstKey (stack : List Frame)
  | nextKey (fs : List (Option String × Json)) (stack : List Frame)
  | colon (fs : List (Option String × Json)) (key : Option String) (stack : List Frame)
  | nextField (fs : List (Option String × Json)) (stack : List Frame)
  | finished (j : Json)

namespace Expecting

def accept (j : Json) : List Frame → Expecting
  | [] => .finished j
  | .items js :: stack => .nextItem (j :: js) stack
  | .fields fs key :: stack => .nextField ((key, j) :: fs) stack

def close (j : Json) (stack : List Frame) : Expecting :=
  accept (if stack.length < maxDepth then j else .unusable) stack

def object (fs : List (Option String × Json)) : Json :=
  match fs.reverse.mapM fun f => f.1.map (·, f.2) with
  | some fields => .object fields
  | none => .unusable

def start (stack : List Frame) : Token → Option Expecting
  | .openArray => some (.firstItem stack)
  | .openObject => some (.firstKey stack)
  | .scalar j => some (accept j stack)
  | .string s => some (accept ((s.map Json.string).getD .unusable) stack)
  | _ => none

def step : Expecting → Token → Option Expecting
  | .value stack, t => start stack t
  | .firstItem stack, .closeArray => some (close (.array []) stack)
  | .firstItem stack, t => start (.items [] :: stack) t
  | .nextItem js stack, .comma => some (.value (.items js :: stack))
  | .nextItem js stack, .closeArray => some (close (.array js.reverse) stack)
  | .firstKey stack, .closeObject => some (close (.object []) stack)
  | .firstKey stack, .string s => some (.colon [] s stack)
  | .nextKey fs stack, .string s => some (.colon fs s stack)
  | .colon fs key stack, .colon => some (.value (.fields fs key :: stack))
  | .nextField fs stack, .comma => some (.nextKey fs stack)
  | .nextField fs stack, .closeObject => some (close (object fs) stack)
  | _, _ => none

def result? : Expecting → Option Json
  | .finished j => some j
  | _ => none

end Expecting

def Json.ofTokens? (ts : List Token) : Option Json :=
  (ts.foldlM Expecting.step (.value [])).bind Expecting.result?

def Json.parse? (text : List Char) : Option Json :=
  (Token.tokens? .between text).bind Json.ofTokens?

end RelDoc.Wire
