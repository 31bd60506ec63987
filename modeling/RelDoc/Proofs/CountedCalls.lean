import Mathlib
import RelDoc.Metered

namespace RelDoc

inductive CallKind where
  | find
  | aggregate
  | distinct
  | count
  | insert
  | update
  | delete
deriving DecidableEq, Repr

def Command.kind {α : Type} : Command α → CallKind
  | .find _ _ => .find
  | .aggregate _ _ => .aggregate
  | .distinct _ _ => .distinct
  | .count _ => .count
  | .insertOne _ | .insertMany _ => .insert
  | .update _ _ _ => .update
  | .delete _ => .delete

structure Call where
  {Answer : Type}
  command : Command Answer
  answer : Except StoreError Answer

namespace Call

def succeeded (call : Call) : Bool := Metered.isOk call.answer

def inserted (call : Call) : Nat :=
  if call.succeeded then Statistics.documentsOf call.command else 0

end Call

namespace Statistics

def ofKind (s : Statistics) : CallKind → Nat
  | .find => s.find
  | .aggregate => s.aggregate
  | .distinct => s.distinct
  | .count => s.count
  | .insert => s.insert
  | .update => s.update
  | .delete => s.delete

/-- Do the counters tell of just these calls? -/
structure Counts (s : Statistics) (calls : List Call) : Prop where
  ofKind : ∀ kind, s.ofKind kind = calls.countP (·.command.kind = kind)
  errors : s.errors = calls.countP (!·.succeeded)
  inserted : s.inserted = (calls.map Call.inserted).sum
  total : s.total = calls.length

theorem ofKind_record {α : Type} (s : Statistics) (command : Command α) (succeeded : Bool)
    (kind : CallKind) : (s.record command succeeded).ofKind kind =
      s.ofKind kind + if command.kind = kind then 1 else 0 := by
  cases succeeded <;> cases command <;> cases kind <;> rfl

theorem errors_record {α : Type} (s : Statistics) (command : Command α) (succeeded : Bool) :
    (s.record command succeeded).errors = s.errors + if succeeded then 0 else 1 := by
  cases succeeded <;> cases command <;> rfl

theorem inserted_record {α : Type} (s : Statistics) (command : Command α) (succeeded : Bool) :
    (s.record command succeeded).inserted =
      s.inserted + if succeeded then documentsOf command else 0 := by
  cases succeeded <;> cases command <;> rfl

theorem Counts.record {s : Statistics} {calls : List Call} (h : s.Counts calls) (call : Call) :
    (s.record call.command call.succeeded).Counts (calls ++ [call]) where
  ofKind kind := by
    rw [ofKind_record, h.ofKind, List.countP_append, List.countP_singleton]
    simp only [decide_eq_true_eq]
  errors := by
    rw [errors_record, h.errors, List.countP_append, List.countP_singleton]
    cases call.succeeded <;> rfl
  inserted := by
    rw [inserted_record, h.inserted, List.map_append, List.sum_append, List.map_singleton,
      List.sum_singleton]
    rfl
  total := by
    rw [total_record, h.total, List.length_append, List.length_singleton]

end Statistics

namespace Trace

universe u v w

variable {State Image : Type u} {Step : Type v} {Seen Shown : Type w}
  (step : State → Step → State × List Seen)

def run : State → List Step → State × List Seen
  | s, [] => (s, [])
  | s, next :: rest =>
    let (s, seen) := step s next
    let (s, more) := run s rest
    (s, seen ++ more)

theorem run_append (s : State) (before after : List Step) :
    run step s (before ++ after) = ((run step (run step s before).1 after).1,
      (run step s before).2 ++ (run step (run step s before).1 after).2) := by
  induction before generalizing s with
  | nil => rfl
  | cons next rest ih =>
    simp only [List.cons_append, run, ih, List.append_assoc]

theorem run_image (other : Image → Step → Image × List Shown) (image : State → Image)
    (shown : Seen → Shown)
    (h : ∀ s next, other (image s) next = (image (step s next).1, (step s next).2.map shown))
    (s : State) (steps : List Step) :
    run other (image s) steps = (image (run step s steps).1, (run step s steps).2.map shown) := by
  induction steps generalizing s with
  | nil => rfl
  | cons next rest ih => simp only [run, h, ih, List.map_append]

end Trace

inductive Event where
  | call {α : Type} (command : Command α)
  | reset
  | offline
  | online

namespace Event

end Event

def Collection.step (c : Collection) : Event → Collection × List Call
  | .call command => ((c.run command).2, [⟨command, (c.run command).1⟩])
  | .reset => (c, [])
  | .offline => ({ c with online := false }, [])
  | .online => ({ c with online := true }, [])

namespace Metered

def step (m : Metered) : Event → Metered × List Call
  | .call command => ((m.run command).2, [⟨command, (m.run command).1⟩])
  | .reset => (m.reset, [])
  | .offline => (m.takeOffline, [])
  | .online => (m.bringOnline, [])

variable {m : Metered} {calls : List Call}

example :
    let document : Document := [("_id", .int32 1)]
    (Trace.run step (ofCollection (.empty "people" true))
      [.call (.insertMany [document, document]), .reset, .offline, .call (.insertOne document),
        .online, .call (.count []), .call (.insertMany [document])]).1.statistics =
      { Statistics.zero with count := 1, insert := 2, errors := 1, inserted := 1 } := rfl

end Metered

end RelDoc
