import RelDoc.QueryError
import RelDoc.Text.Classes

namespace RelDoc

inductive Operator where
  | eq
  | ne
  | lt
  | lte
  | gt
  | gte
  | like
  | notLike
  | regex
  | notRegex
  | structural (name : String)
deriving DecidableEq, Repr

namespace Operator

def structuralNames : List String :=
  ["between", "ilike", "&", "|", "^", "<<", ">>", "rlike", "exists", "type", "mod", "where", "all",
    "size", "text", "slice", "elemMatch", "geoWithin", "geoIntersects", "near", "nearSphere",
    "geometry", "maxDistance", "center", "centerSphere", "box", "polygon", "uniqueDocs"]

def lowered (cs : List Char) : String := String.ofList (cs.map Text.lower)

def ofLowered? : String → Option Operator
  | "=" => some .eq
  | "!=" | "<>" => some .ne
  | "<" => some .lt
  | "<=" => some .lte
  | ">" => some .gt
  | ">=" => some .gte
  | "like" => some .like
  | "not like" => some .notLike
  | "regex" | "regexp" => some .regex
  | "not regex" | "not regexp" => some .notRegex
  | s => (structuralNames.find? fun name => lowered name.toList == s).map .structural

def withoutSign : List Char → List Char
  | '$' :: rest => rest
  | cs => cs

def parse (spelling : String) : Except QueryError Operator :=
  match ofLowered? (lowered (withoutSign (Text.trim spelling.toList))) with
  | some op => .ok op
  | none => .error (.unknownOperator spelling)

def text : Operator → String
  | .eq => "="
  | .ne => "!="
  | .lt => "<"
  | .lte => "<="
  | .gt => ">"
  | .gte => ">="
  | .like => "like"
  | .notLike => "not like"
  | .regex => "regex"
  | .notRegex => "not regex"
  | .structural name => name

def comparison? : Operator → Option String
  | .ne => some "$ne"
  | .lt => some "$lt"
  | .lte => some "$lte"
  | .gt => some "$gt"
  | .gte => some "$gte"
  | _ => none

def nativeKey? : Operator → Option String
  | .eq | .like => none
  | .notLike | .notRegex => some "$not"
  | .regex => some "$regex"
  | .structural name => some ("$" ++ name)
  | op => op.comparison?

def isNegatedPattern : Operator → Bool
  | .notLike | .notRegex => true
  | _ => false

end Operator

inductive AggregateFunction where
  | count
  | sum
  | avg
  | min
  | max
deriving DecidableEq, Repr

namespace AggregateFunction

def ofLowered? : String → Option AggregateFunction
  | "count" => some .count
  | "sum" => some .sum
  | "avg" | "average" => some .avg
  | "min" => some .min
  | "max" => some .max
  | _ => none

def parse (name : String) : Except QueryError AggregateFunction :=
  match ofLowered? (Operator.lowered name.toList) with
  | some f => .ok f
  | none => .error (.unknownAggregate name)

def text : AggregateFunction → String
  | .count => "count"
  | .sum => "sum"
  | .avg => "avg"
  | .min => "min"
  | .max => "max"

def accumulator : AggregateFunction → String
  | .count | .sum => "$sum"
  | .avg => "$avg"
  | .min => "$min"
  | .max => "$max"

end AggregateFunction

end RelDoc
