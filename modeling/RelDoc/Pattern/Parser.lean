import RelDoc.Pattern.Bracket

namespace RelDoc.Pattern

abbrev Items := List (Option Pattern)

structure Level where
  branches : List Pattern
  items : Items

structure Frame where
  level : Level
  flags : Flags

structure Reader where
  frames : List Frame
  level : Level
  flags : Flags
  names : List String
  rest : List Char

def sequence (items : Items) : Pattern :=
  items.foldl (fun later item =>
    match item with
    | some p => .seq p later
    | none => later) .empty

def Level.pattern (level : Level) : Pattern :=
  level.branches.foldl (fun later branch => .alt branch later) (sequence level.items)

namespace Reader

def push (r : Reader) (p : Pattern) (rest : List Char) : Reader :=
  { r with level := { r.level with items := some p :: r.level.items }, rest }

def repeatLast? (r : Reader) (least : Nat) (most : Option Nat) (rest : List Char) : Option Reader :=
  match r.level.items with
  | some p :: items =>
    some { r with level := { r.level with items := some (.repeated p least most) :: items }, rest }
  | _ => none

def dropLazy : List Char → List Char
  | '?' :: rest => rest
  | rest => rest

def openGroup (r : Reader) (flags : Flags) (rest : List Char) : Reader :=
  { r with frames := ⟨r.level, r.flags⟩ :: r.frames, level := ⟨[], []⟩, flags, rest }

def closeGroup? (r : Reader) (rest : List Char) : Option Reader :=
  match r.frames with
  | [] => none
  | frame :: frames =>
    some { r with
      frames
      level := { frame.level with items := some r.level.pattern :: frame.level.items }
      flags := frame.flags
      rest }

def setFlag? (flags : Flags) (on : Bool) (c : Char) : Option Flags :=
  match c with
  | 'i' => some { flags with ignoreCase := on }
  | 'm' => some { flags with multiLine := on }
  | 's' => some { flags with dotAll := on }
  | 'x' => some { flags with verbose := on }
  | 'U' | 'u' => some flags
  | _ => none

/-- Flag letters up to a colon or a closing parenthesis, each letter once, with one minus sign at
most and no minus sign at the end. The letters seen so far are kept, last first. -/
def flags? (flags : Flags) (seen : List Char) : List Char → Option (Flags × List Char × List Char)
  | [] => none
  | c :: rest =>
    if c = ':' ∨ c = ')' then
      if seen.head? = some '-' then none else some (flags, seen, c :: rest)
    else if seen.contains c then none
    else if c = '-' then flags? flags (c :: seen) rest
    else (setFlag? flags (!seen.contains '-') c).bind fun flags => flags? flags (c :: seen) rest

def isNameStart (c : Char) : Bool := c = '_' || (Text.isWord c && !Text.isDecimal c)

def isNameChar (c : Char) : Bool := Text.isWord c || c = '.' || c = '[' || c = ']'

def name? (cs : List Char) : Option (String × List Char) :=
  let name := cs.takeWhile (· != '>')
  match name, cs.drop name.length with
  | c :: more, '>' :: rest =>
    if isNameStart c && more.all isNameChar then some (String.ofList name, rest) else none
  | _, _ => none

def group? (r : Reader) (cs : List Char) : Option Reader :=
  let named (cs : List Char) : Option Reader := do
    let (name, rest) ← name? cs
    if r.names.contains name then none
    else some { r.openGroup r.flags rest with names := name :: r.names }
  match skip r.flags.verbose cs with
  | '?' :: '=' :: _ | '?' :: '!' :: _ | '?' :: '<' :: '=' :: _ | '?' :: '<' :: '!' :: _ => none
  | '?' :: 'P' :: '<' :: rest => named rest
  | '?' :: '<' :: rest => named rest
  | '?' :: rest =>
    match flags? r.flags [] rest with
    | some (flags, _, ':' :: rest) => some (r.openGroup flags rest)
    | some (flags, _ :: _, ')' :: rest) =>
      some { r with flags, level := { r.level with items := none :: r.level.items }, rest }
    | _ => none
  | rest => some (r.openGroup r.flags rest)

def count? (verbose : Bool) (cs : List Char) : Option (Nat × List Char) :=
  let rec digits : Nat → List Char → List Char × List Char
    | 0, cs => ([], cs)
    | fuel + 1, cs =>
      match cs with
      | c :: rest =>
        if c.isDigit then
          let (ds, rest) := digits fuel (skip verbose rest)
          (c :: ds, rest)
        else ([], cs)
      | [] => ([], [])
  let cs := Text.trimLeft cs
  let (ds, rest) := digits cs.length cs
  let n := ds.foldl (fun n c => 10 * n + (c.toNat - 48)) 0
  if ds.isEmpty || UInt32.size ≤ n then none else some (n, Text.trimLeft rest)

def counted? (r : Reader) (cs : List Char) : Option Reader := do
  let verbose := r.flags.verbose
  let finish (least : Nat) (most : Option Nat) (rest : List Char) : Option Reader :=
    r.repeatLast? least most (dropLazy (skip verbose rest))
  let (least, rest) ← count? verbose (skip verbose cs)
  match rest with
  | '\x7d' :: rest => finish least (some least) rest
  | ',' :: rest =>
    match skip verbose rest with
    | '\x7d' :: rest => finish least none rest
    | rest => do
      let (most, rest) ← count? verbose rest
      match rest with
      | '\x7d' :: rest => if least ≤ most then finish least (some most) rest else none
      | _ => none
  | _ => none

def literal (flags : Flags) (c : Char) : Pattern := .one (caseClosed flags (.single c))

def dot (flags : Flags) : Pattern :=
  .one (if flags.dotAll then .compl .empty else .compl (.single '\n'))

def step? (r : Reader) : Char → List Char → Option Reader
  | '(', rest => r.group? rest
  | ')', rest => r.closeGroup? rest
  | '|', rest =>
    some { r with level := ⟨sequence r.level.items :: r.level.branches, []⟩, rest }
  | '[', rest => (bracket? r.flags (rest.length + 1) rest).map fun (set, rest) =>
      r.push (.one set) rest
  | '?', rest => r.repeatLast? 0 (some 1) (dropLazy rest)
  | '*', rest => r.repeatLast? 0 none (dropLazy rest)
  | '+', rest => r.repeatLast? 1 none (dropLazy rest)
  | '\x7b', rest => r.counted? rest
  | '\\', rest =>
    (escaped? rest).map fun
      | (.char c, rest) => r.push (literal r.flags c) rest
      | (.set s, rest) => r.push (.one s) rest
      | (.assertion a, rest) => r.push (.assertion a) rest
  | '.', rest => some (r.push (dot r.flags) rest)
  | '^', rest =>
    some (r.push (.assertion (if r.flags.multiLine then .lineStart else .textStart)) rest)
  | '$', rest => some (r.push (.assertion (if r.flags.multiLine then .lineEnd else .textEnd)) rest)
  | c, rest => some (r.push (literal r.flags c) rest)

def run? : Nat → Reader → Option Pattern
  | 0, _ => none
  | fuel + 1, r =>
    match skip r.flags.verbose r.rest with
    | [] => if r.frames.isEmpty then some r.level.pattern else none
    | c :: rest => (r.step? c rest).bind (run? fuel)

end Reader

def parse? (flags : Flags) (cs : List Char) : Option Pattern :=
  -- Every step takes a character at least.
  Reader.run? (cs.length + 1) ⟨[], ⟨[], []⟩, flags, [], cs⟩

end RelDoc.Pattern
