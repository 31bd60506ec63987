import RelDoc.Pattern.Escape

namespace RelDoc.Pattern

inductive SetOperator where
  | intersection
  | difference
  | symmetricDifference

def caseClosed (flags : Flags) (s : CharSet) : CharSet := if flags.ignoreCase then .folded s else s

abbrev Pending := Option (SetOperator × CharSet)

def combined (flags : Flags) (pending : Pending) (s : CharSet) : CharSet :=
  match pending with
  | none => s
  | some (.intersection, left) => .inter (caseClosed flags left) (caseClosed flags s)
  | some (.difference, left) => (caseClosed flags left).diff (caseClosed flags s)
  | some (.symmetricDifference, left) => (caseClosed flags left).symmDiff (caseClosed flags s)

def asciiClass? (name : String) : Option CharSet :=
  match name with
  | "alnum" => some (.union (.range '0' '9') (.union (.range 'A' 'Z') (.range 'a' 'z')))
  | "alpha" => some (.union (.range 'A' 'Z') (.range 'a' 'z'))
  | "ascii" => some (.range '\x00' '\x7f')
  | "blank" => some (.union (.single '\t') (.single ' '))
  | "cntrl" => some (.union (.range '\x00' '\x1f') (.single '\x7f'))
  | "digit" => some (.range '0' '9')
  | "graph" => some (.range '!' '~')
  | "lower" => some (.range 'a' 'z')
  | "print" => some (.range ' ' '~')
  | "punct" => some (.union (.union (.range '!' '/') (.range ':' '@'))
      (.union (.range '[' '\x60') (.range '\x7b' '~')))
  | "space" => some (.union (.range '\t' '\r') (.single ' '))
  | "upper" => some (.range 'A' 'Z')
  | "word" => some (.union (.union (.range '0' '9') (.single '_'))
      (.union (.range 'A' 'Z') (.range 'a' 'z')))
  | "xdigit" => some (.union (.range '0' '9') (.union (.range 'A' 'F') (.range 'a' 'f')))
  | _ => none

def namedClass? : List Char → Option (CharSet × List Char)
  | ':' :: rest =>
    let (negated, rest) := match rest with
      | '^' :: rest => (true, rest)
      | rest => (false, rest)
    let name := rest.takeWhile (· != ':')
    match rest.drop name.length with
    | ':' :: ']' :: rest => (asciiClass? (String.ofList name)).map fun s =>
        (if negated then .compl s else s, rest)
    | _ => none
  | _ => none

def member? : List Char → Option (Escaped × List Char)
  | [] => none
  | '\\' :: rest => escaped? rest
  | c :: rest => some (.char c, rest)

def memberOrRange? (flags : Flags) (cs : List Char) : Option (CharSet × List Char) := do
  let (first, rest) ← member? cs
  let rest := skip flags.verbose rest
  let alone : Option (CharSet × List Char) :=
    match first with
    | .char c => some (.single c, rest)
    | .set s => some (s, rest)
    | .assertion _ => none
  match rest with
  | [] => none
  | '-' :: after =>
    match (skip flags.verbose after).head? with
    | some ']' | some '-' => alone
    | _ =>
      match first, ← member? (skip flags.verbose after) with
      | .char low, (.char high, rest) =>
        if low.toNat ≤ high.toNat then some (.range low high, rest) else none
      | _, _ => none
  | _ => alone

def leadingHyphens (verbose : Bool) : Nat → List Char → Bool × List Char
  | 0, cs => (false, cs)
  | fuel + 1, cs =>
    match cs with
    | '-' :: rest => (true, (leadingHyphens verbose fuel (skip verbose rest)).2)
    | cs => (false, cs)

mutual

def bracket? (flags : Flags) : Nat → List Char → Option (CharSet × List Char)
  | 0, _ => none
  | fuel + 1, cs => do
    let cs := skip flags.verbose cs
    let (negated, cs) := match cs with
      | '^' :: rest => (true, skip flags.verbose rest)
      | cs => (false, cs)
    let (hyphen, cs) := leadingHyphens flags.verbose cs.length cs
    let start := if hyphen then CharSet.single '-' else .empty
    let (start, cs) := match hyphen, cs with
      | false, ']' :: rest => (CharSet.single ']', skip flags.verbose rest)
      | _, cs => (start, cs)
    let (set, rest) ← members? flags fuel none start cs
    let set := caseClosed flags set
    some (if negated then .compl set else set, rest)

def members? (flags : Flags) : Nat → Pending → CharSet → List Char → Option (CharSet × List Char)
  | 0, _, _, _ => none
  | fuel + 1, pending, acc, cs =>
    match skip flags.verbose cs with
    | [] => none
    | ']' :: rest => some (combined flags pending acc, rest)
    | '[' :: rest => do
      let (set, rest) ← (namedClass? rest).or (bracket? flags fuel rest)
      members? flags fuel pending (.union acc set) rest
    | '&' :: '&' :: rest =>
      members? flags fuel (some (.intersection, combined flags pending acc)) .empty rest
    | '-' :: '-' :: rest =>
      members? flags fuel (some (.difference, combined flags pending acc)) .empty rest
    | '~' :: '~' :: rest =>
      members? flags fuel (some (.symmetricDifference, combined flags pending acc)) .empty rest
    | cs => do
      let (set, rest) ← memberOrRange? flags cs
      members? flags fuel pending (.union acc set) rest

end

end RelDoc.Pattern
