import RelDoc.Literal
import RelDoc.Pattern.Operands
import RelDoc.Plan.Basic
import RelDoc.Plan.Constraints
import RelDoc.Settings

/-!
The scope of a plan: its clauses as one filter. A clause alone that is joined by `and` is its own
filter. Otherwise every clause goes into the list under `$and` or `$or` that its join names, and the
first clause, when joined by `and`, goes where the second one does.
-/

namespace RelDoc.Scope

def under (key : String) (v : Value) : Document := [(key, v)]

def prepare (s : Settings) (column : String) (l : Literal) : Value :=
  if column = s.idField then Identifier.normalize l else l.toValue

def prepareAll (s : Settings) (column : String) (ls : List Literal) : Value :=
  .array (ls.map (prepare s column))

def operand (op : Operator) (v : Value) : Except QueryError Value :=
  match op with
  | .like | .notLike => Pattern.Like.regex v
  | .regex | .notRegex => Pattern.Delimited.regex v
  | _ => .ok v

def unequal : Value → Value
  | .regex pattern options => .document (under "$not" (.regex pattern options))
  | v => .document (under "$ne" v)

def compareWith (op : Operator) (negated : Bool) (v : Value) : Value :=
  match op.nativeKey?, negated with
  | none, false => v
  | none, true => unequal v
  | some key, false => .document (under key v)
  | some key, true =>
    if op.isNegatedPattern then v else .document (under "$not" (.document (under key v)))

def compareFragment (s : Settings) (column operator : String) (l : Literal) (negated : Bool) :
    Except QueryError Document := do
  let op ← Operator.parse operator
  let v ← operand op (prepare s column l)
  pure (under column (compareWith op negated v))

def betweenFragment (column : String) (low high : Value) (negated : Bool) : Document :=
  if negated then
    under "$or" (.array [.document (under column (.document (under "$lte" low))),
      .document (under column (.document (under "$gte" high)))])
  else under column (.document [("$gte", low), ("$lte", high)])

abbrev Fragment := Join × Document

def listKey : Join → String
  | .and => "$and"
  | .or => "$or"

def wrap (f : Fragment) : Document := under (listKey f.1) (.array [.document f.2])

def rejoined : List Fragment → List Fragment
  | (.and, f) :: (join, g) :: rest => (join, f) :: (join, g) :: rest
  | fs => fs

def assemble : List Fragment → Constraints
  | [(.and, f)] => Constraints.merge [] f
  | fs => (rejoined fs).foldl (fun cs f => cs.merge (wrap f)) []

mutual

def fragment (s : Settings) : Condition → Except QueryError Document
  | .compare column operator l negated => compareFragment s column operator l negated
  | .oneOf column ls => .ok (under column (.document (under "$in" (prepareAll s column ls))))
  | .noneOf column ls => .ok (under column (.document (under "$nin" (prepareAll s column ls))))
  | .null column => .ok (under column .null)
  | .notNull column => .ok (under column (.document (under "$ne" .null)))
  | .between column low high negated =>
    .ok (betweenFragment column (prepare s column low) (prepare s column high) negated)
  | .all column ls => .ok (under column (.document (under "$all" (prepareAll s column ls))))
  | .nested { clauses, .. } => (fragments s clauses).map fun fs => (assemble fs).toDocument
  | .raw filter => .ok filter
termination_by structural condition => condition

def fragments (s : Settings) : List Clause → Except QueryError (List Fragment)
  | [] => .ok []
  | ⟨join, condition⟩ :: rest => do
    let f ← fragment s condition
    let more ← fragments s rest
    pure ((join, f) :: more)
termination_by structural clauses => clauses

end

def compile (s : Settings) (clauses : List Clause) : Except QueryError Constraints :=
  (fragments s clauses).map assemble

def filter (s : Settings) (clauses : List Clause) : Except QueryError Document :=
  (compile s clauses).map Constraints.toDocument

theorem fragment_nested (s : Settings) (p : Plan) : fragment s (.nested p) = filter s p.clauses := by
  obtain ⟨clauses⟩ := p
  unfold filter compile
  rw [fragment]
  rcases fragments s clauses with e | fs <;> rfl

end RelDoc.Scope
