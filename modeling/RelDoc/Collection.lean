import RelDoc.Pipeline.Basic
import RelDoc.Update

namespace RelDoc

structure InsertReport where
  acknowledged : Bool
  ids : List Value

structure UpdateReport where
  acknowledged : Bool
  matched : Nat
  modified : Nat
  upserted : Nat
  upsertedId : Option Value

structure DeleteReport where
  acknowledged : Bool
  deleted : Nat

def UpdateReport.affected (r : UpdateReport) : Nat :=
  if !r.acknowledged then 0 else if 0 < r.modified then r.modified else r.upserted

inductive Command : Type → Type where
  | find (filter options : Document) : Command (List Document)
  | aggregate (stages : List Document) (options : Document) : Command (List Document)
  | distinct (column : String) (filter : Document) : Command (List Value)
  | count (filter : Document) : Command Nat
  | insertOne (doc : Document) : Command InsertReport
  | insertMany (docs : List Document) : Command InsertReport
  | update (filter operations options : Document) : Command UpdateReport
  | delete (filter : Document) : Command DeleteReport

structure Collection where
  name : String
  acknowledged : Bool
  online : Bool
  documents : List Document
  handedOut : Nat

namespace Collection

def empty (name : String) (acknowledged : Bool) : Collection := ⟨name, acknowledged, true, [], 0⟩

def store (c : Collection) (d : Document) : Collection × Value :=
  match d.get? "_id" with
  | some id => ({ c with documents := c.documents ++ [d] }, id)
  | none =>
    let id : Value := .objectId (.generated c.handedOut)
    ({ c with documents := c.documents ++ [("_id", id) :: d], handedOut := c.handedOut + 1 }, id)

def storeAll : Collection → List Document → Collection × List Value
  | c, [] => (c, [])
  | c, d :: rest =>
    let (c, id) := c.store d
    let (c, ids) := storeAll c rest
    (c, id :: ids)

def sorted (options : Document) (docs : List Document) : Except StoreError (List Document) :=
  match options.get? "sort" with
  | some (.document spec) => Sorting.sort spec docs
  | _ => .ok docs

def skipped (options : Document) (docs : List Document) : Except StoreError (List Document) :=
  match options.get? "skip" with
  | some v => (Pipeline.count "skip" v).map docs.drop
  | none => .ok docs

def limited (options : Document) (docs : List Document) : Except StoreError (List Document) :=
  match options.get? "limit" with
  | some v => (Pipeline.count "limit" v).map fun n => if n = 0 then docs else docs.take n
  | none => .ok docs

def projected (options : Document) (docs : List Document) : List Document :=
  match options.get? "projection" with
  | some (.document spec) => docs.map (·.project spec)
  | _ => docs

def find (c : Collection) (filter options : Document) : Except StoreError (List Document) := do
  let docs ← Filter.select filter c.documents
  let docs ← sorted options docs
  let docs ← skipped options docs
  let docs ← limited options docs
  pure (projected options docs)

def columnValues (column : String) (d : Document) : List Value :=
  (d.lookup column).flatMap fun v => v.asArray?.getD [v]

def distinctValues (column : String) (docs : List Document) : List Value :=
  (docs.flatMap (columnValues column)).foldl Update.appendNew []

def flag (options : Document) (name : String) (standard : Bool) : Bool :=
  match options.get? name with
  | some (.boolean b) => b
  | _ => standard

structure Sweep where
  documents : List Document
  matched : Nat
  modified : Nat

/-- Updates the documents that pass a filter, or the first of them only. Where an update fails, the
documents before it stay changed and its own is as it was. -/
def sweep (filter operations : Document) (multiple : Bool) :
    List Document → Sweep × Except StoreError Unit
  | [] => (⟨[], 0, 0⟩, .ok ())
  | d :: rest =>
    match Filter.holds d filter with
    | .error e => (⟨d :: rest, 0, 0⟩, .error e)
    | .ok false =>
      let (s, outcome) := sweep filter operations multiple rest
      ({ s with documents := d :: s.documents }, outcome)
    | .ok true =>
      match Update.applied operations d with
      | .error e => (⟨d :: rest, 1, 0⟩, .error e)
      | .ok (after, changed) =>
        let kept := if changed then after else d
        let one := if changed then 1 else 0
        if multiple then
          let (s, outcome) := sweep filter operations multiple rest
          (⟨kept :: s.documents, s.matched + 1, s.modified + one⟩, outcome)
        else (⟨kept :: rest, 1, one⟩, .ok ())

def hasOperators : Value → Bool
  | .document fields => Document.isOperators fields
  | _ => false

mutual

def seedFields : List (String × Value) → Document → Document
  | [], seed => seed
  | (key, v) :: rest, seed => seedFields rest (seedEntry key v seed)
termination_by structural fields => fields

def seedEntry (key : String) : Value → Document → Document
  | .array items, seed =>
    if key = "$and" then seedAll items seed
    else if isOperator key then seed
    else seed.set key (.array items)
  | v, seed => if isOperator key || hasOperators v then seed else seed.set key v
termination_by structural v => v

def seedAll : List Value → Document → Document
  | [], seed => seed
  | .document fields :: rest, seed => seedAll rest (seedFields fields seed)
  | _ :: rest, seed => seedAll rest seed
termination_by structural items => items

end

def unconfirmed : UpdateReport := ⟨false, 0, 0, 0, none⟩

def confirm (c : Collection) (report : UpdateReport) : UpdateReport :=
  if c.acknowledged then report else unconfirmed

def updateMany (c : Collection) (filter operations options : Document) :
    Except StoreError UpdateReport × Collection :=
  let (s, outcome) := sweep filter operations (flag options "multiple" true) c.documents
  let c := { c with documents := s.documents }
  match outcome with
  | .error e => (.error e, c)
  | .ok () =>
    if s.matched = 0 ∧ flag options "upsert" false then
      match Update.applied operations (seedFields filter []) with
      | .error e => (.error e, c)
      | .ok (seed, _) =>
        let (c, id) := c.store seed
        (.ok (c.confirm ⟨true, 0, 0, 1, some id⟩), c)
    else (.ok (c.confirm ⟨true, s.matched, s.modified, 0, none⟩), c)

def deleteMany (c : Collection) (filter : Document) : Except StoreError DeleteReport × Collection :=
  match Filter.partition filter c.documents with
  | .error e => (.error e, c)
  | .ok (passed, failed) =>
    (.ok (if c.acknowledged then ⟨true, passed.length⟩ else ⟨false, 0⟩),
      { c with documents := failed })

def perform {α : Type} (c : Collection) : Command α → Except StoreError α × Collection
  | .find filter options => (c.find filter options, c)
  | .aggregate stages _ => (Pipeline.run stages c.documents, c)
  | .distinct column filter =>
    ((Filter.select filter c.documents).map (distinctValues column), c)
  | .count filter => ((Filter.select filter c.documents).map List.length, c)
  | .insertOne d =>
    let (c, id) := c.store d
    (.ok ⟨c.acknowledged, [id]⟩, c)
  | .insertMany docs =>
    let (c, ids) := c.storeAll docs
    (.ok ⟨c.acknowledged, ids⟩, c)
  | .update filter operations options => c.updateMany filter operations options
  | .delete filter => c.deleteMany filter

def run {α : Type} (c : Collection) (command : Command α) : Except StoreError α × Collection :=
  if c.online then c.perform command else (.error (.offline c.name), c)

theorem run_offline {α : Type} (c : Collection) (command : Command α) (h : c.online = false) :
    c.run command = (.error (.offline c.name), c) := by
  simp [run, h]

theorem online_of_run_ok {α : Type} {c : Collection} {command : Command α} {a : α}
    (h : (c.run command).1 = .ok a) : c.online = true := by
  rcases honline : c.online with _ | _
  · rw [run_offline c command honline] at h
    cases h
  · rfl

end Collection

end RelDoc
