import RelDoc.Collection

namespace RelDoc

/-- How often each kind of call was made, how many calls failed, and how many documents went in. How
long the calls took is not measured. -/
structure Statistics where
  find : Nat
  aggregate : Nat
  distinct : Nat
  count : Nat
  insert : Nat
  update : Nat
  delete : Nat
  errors : Nat
  inserted : Nat
deriving DecidableEq, Repr

namespace Statistics

def zero : Statistics := ⟨0, 0, 0, 0, 0, 0, 0, 0, 0⟩

def total (s : Statistics) : Nat :=
  s.find + s.aggregate + s.distinct + s.count + s.insert + s.update + s.delete

def countCall {α : Type} (s : Statistics) : Command α → Statistics
  | .find _ _ => { s with find := s.find + 1 }
  | .aggregate _ _ => { s with aggregate := s.aggregate + 1 }
  | .distinct _ _ => { s with distinct := s.distinct + 1 }
  | .count _ => { s with count := s.count + 1 }
  | .insertOne _ | .insertMany _ => { s with insert := s.insert + 1 }
  | .update _ _ _ => { s with update := s.update + 1 }
  | .delete _ => { s with delete := s.delete + 1 }

def documentsOf {α : Type} : Command α → Nat
  | .insertOne _ => 1
  | .insertMany docs => docs.length
  | _ => 0

def record {α : Type} (s : Statistics) (command : Command α) (succeeded : Bool) : Statistics :=
  let s := s.countCall command
  if succeeded then { s with inserted := s.inserted + documentsOf command }
  else { s with errors := s.errors + 1 }

theorem total_record {α : Type} (s : Statistics) (command : Command α) (succeeded : Bool) :
    (s.record command succeeded).total = s.total + 1 := by
  cases command <;> cases succeeded <;> simp [record, countCall, total] <;> omega

end Statistics

structure Metered where
  collection : Collection
  statistics : Statistics

namespace Metered

def ofCollection (c : Collection) : Metered := ⟨c, .zero⟩

def isOk {α : Type} : Except StoreError α → Bool
  | .ok _ => true
  | .error _ => false

def run {α : Type} (m : Metered) (command : Command α) : Except StoreError α × Metered :=
  let (answer, collection) := m.collection.run command
  (answer, ⟨collection, m.statistics.record command (isOk answer)⟩)

def reset (m : Metered) : Metered := { m with statistics := .zero }

def takeOffline (m : Metered) : Metered :=
  { m with collection := { m.collection with online := false } }

def bringOnline (m : Metered) : Metered :=
  { m with collection := { m.collection with online := true } }

end Metered

end RelDoc
