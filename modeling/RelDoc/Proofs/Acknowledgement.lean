import RelDoc.Proofs.RoundTrips

namespace RelDoc

def Command.unconfirm {α : Type} : Command α → α → α
  | .insertOne _, report | .insertMany _, report => { report with acknowledged := false }
  | .update _ _ _, _ => Collection.unconfirmed
  | .delete _, _ => ⟨false, 0⟩
  | .find _ _, answer | .aggregate _ _, answer | .distinct _ _, answer | .count _, answer => answer

def Query.Write.unconfirmed {α : Type} : Query.Write α → α
  | .insert rows => rows.isEmpty
  | .insertGetId _ => none
  | .update _ | .increment _ _ _ | .decrement _ _ _ | .push _ _ _ | .pull _ _ | .drop _ | .delete
  | .deleteId _ => 0
  | .truncate => false

def Query.Operation.unconfirm {α : Type} : Query.Operation α → α → α
  | .read _, answer => answer
  | .write w, _ => w.unconfirmed

namespace Collection

variable {c : Collection}

def acknowledging (c : Collection) (b : Bool) : Collection := { c with acknowledged := b }

theorem store_acknowledging (c : Collection) (b : Bool) (d : Document) :
    (c.acknowledging b).store d = ((c.store d).1.acknowledging b, (c.store d).2) := by
  rw [store, store]
  split <;> rfl

theorem storeAll_acknowledging (c : Collection) (b : Bool) (docs : List Document) :
    (c.acknowledging b).storeAll docs = ((c.storeAll docs).1.acknowledging b, (c.storeAll docs).2) := by
  induction docs generalizing c with
  | nil => rfl
  | cons d rest ih => simp only [storeAll, store_acknowledging, ih]

theorem updateMany_unacknowledged (c : Collection) (filter operations options : Document) :
    (c.acknowledging false).updateMany filter operations options =
      ((c.updateMany filter operations options).1.map fun _ => unconfirmed,
        (c.updateMany filter operations options).2.acknowledging false) := by
  have hdocuments : (c.acknowledging false).documents = c.documents := rfl
  rw [updateMany, updateMany, hdocuments]
  rcases sweep filter operations (flag options "multiple" true) c.documents with ⟨s, e | ⟨⟩⟩
  · rfl
  · have hswept : ({ c.acknowledging false with documents := s.documents } : Collection) =
        ({ c with documents := s.documents } : Collection).acknowledging false := rfl
    dsimp only
    rw [hswept]
    split
    · rcases Update.applied operations (seedFields filter []) with e | ⟨seed, changed⟩
      · rfl
      · dsimp only
        rw [store_acknowledging]
        rfl
    · rfl

theorem perform_unacknowledged {α : Type} (c : Collection) (command : Command α) :
    (c.acknowledging false).perform command =
      ((c.perform command).1.map command.unconfirm, (c.perform command).2.acknowledging false) := by
  have hread (answer : Except StoreError α) : answer = answer.map id := by cases answer <;> rfl
  cases command with
  | find | aggregate | distinct | count => exact Prod.ext (hread _) rfl
  | insertOne d => rw [perform, perform, store_acknowledging]; rfl
  | insertMany docs => rw [perform, perform, storeAll_acknowledging]; rfl
  | update filter operations options => exact updateMany_unacknowledged c filter operations options
  | delete filter =>
    have hdocuments : (c.acknowledging false).documents = c.documents := rfl
    rw [perform, perform, deleteMany, deleteMany, hdocuments]
    rcases Filter.partition filter c.documents with e | ⟨passed, failed⟩ <;> rfl

theorem run_unacknowledged {α : Type} (c : Collection) (command : Command α) :
    (c.acknowledging false).run command =
      ((c.run command).1.map command.unconfirm, (c.run command).2.acknowledging false) := by
  by_cases honline : c.online = true
  · have hsame : (c.acknowledging false).online = true := honline
    rw [run, run, if_pos honline, if_pos hsame, perform_unacknowledged]
  · have hsame : ¬ (c.acknowledging false).online = true := honline
    rw [run, run, if_neg honline, if_neg hsame]
    rfl

end Collection

namespace Metered

def acknowledging (m : Metered) (b : Bool) : Metered :=
  { m with collection := m.collection.acknowledging b }

theorem run_unacknowledged {α : Type} (m : Metered) (command : Command α) :
    (m.acknowledging false).run command =
      ((m.run command).1.map command.unconfirm, (m.run command).2.acknowledging false) := by
  have hcollection := m.collection.run_unacknowledged command
  have hok (answer : Except StoreError α) : isOk (answer.map command.unconfirm) = isOk answer := by
    cases answer <;> rfl
  simp only [run, acknowledging, hcollection, hok]

end Metered

namespace Request

variable {α β : Type} {f : α → α}

inductive Unconfirms (f : α → α) : Request α → Prop where
  | settled (answer : Except QueryError α) (h : answer.map f = answer) :
    Unconfirms f (.settled answer)
  | issue {β : Type} (command : Command β) (answer : β → α)
      (h : ∀ b, answer (command.unconfirm b) = f (answer b)) : Unconfirms f (.issue command answer)

theorem Unconfirms.run {r : Request α} (h : r.Unconfirms f) (m : Metered) :
    r.run (m.acknowledging false) = ((r.run m).1.map f, (r.run m).2.acknowledging false) := by
  cases h with
  | settled answer h => rw [run_settled, run_settled, h]
  | issue command answer h =>
    have hrun := m.run_unacknowledged command
    have hanswer : (m.collection.run command).1 = (m.run command).1 := rfl
    have hother : ((m.acknowledging false).collection.run command).1 =
      ((m.acknowledging false).run command).1 := rfl
    rw [run_issue, run_issue, hother, hanswer, hrun]
    rcases (m.run command).1 with e | b
    · rfl
    · exact Prod.ext (congrArg Except.ok (h b)) rfl

theorem unconfirms_after {x : Except QueryError β} {next : β → Request α}
    (h : ∀ b, x = .ok b → (next b).Unconfirms f) : (after x next).Unconfirms f := by
  cases x with
  | error e => exact .settled _ rfl
  | ok b => exact h b rfl

theorem Unconfirms.map {r : Request α} (h : r.Unconfirms id) (g : α → β) :
    (r.map g).Unconfirms id := by
  cases h with
  | settled answer h => exact .settled _ (by cases answer <;> rfl)
  | issue command answer h => exact .issue command _ fun b => congrArg g (h b)

end Request

namespace Query

variable {α : Type} (q : Query)

theorem get_unconfirms : q.get.Unconfirms id :=
  Request.unconfirms_after fun strategy _ => by
    cases strategy <;> exact .issue _ _ fun _ => rfl

theorem cursor_unconfirms : q.cursor.Unconfirms id :=
  Request.unconfirms_after fun strategy _ => by
    cases strategy with
    | find | aggregate => exact .issue _ _ fun _ => rfl
    | distinct | count => exact .settled _ rfl

theorem Read.unconfirms (r : Read α) : (r.request q).Unconfirms id := by
  have hrows (p : Plan) := (get_unconfirms { q with plan := p }).map ResultSet.rows
  cases r with
  | get => exact q.get_unconfirms
  | cursor => exact q.cursor_unconfirms
  | first | find | pluck | pluckWithKey | aggregateValue | sum | average | minimum | maximum =>
    exact (hrows _).map _
  | nonempty | value | count => exact ((hrows _).map _).map _
  | distinctValues => exact (get_unconfirms _).map _

theorem mutate_unconfirms (m : Mutation) : (q.mutate m).Unconfirms fun _ => 0 :=
  Request.unconfirms_after fun _ _ => .issue _ _ fun _ => rfl

theorem delete_unconfirms : q.delete.Unconfirms fun _ => 0 :=
  Request.unconfirms_after fun _ _ => .issue _ _ fun _ => rfl

theorem insert_unconfirms (rows : List Literal) :
    (insert rows).Unconfirms fun _ => rows.isEmpty := by
  refine Request.unconfirms_after fun docs hdocs => ?_
  have hnone : docs.isEmpty = rows.isEmpty := by
    rw [Bool.eq_iff_iff, List.isEmpty_iff, List.isEmpty_iff, rows_eq_nil hdocs]
  cases hrows : rows.isEmpty with
  | true =>
    rw [hnone, hrows, if_pos rfl]
    exact .settled _ rfl
  | false =>
    rw [hnone, hrows]
    exact .issue _ _ fun _ => rfl

theorem Write.unconfirms (w : Write α) : (w.request q).Unconfirms fun _ => w.unconfirmed := by
  cases w with
  | insert rows => exact insert_unconfirms rows
  | insertGetId l => exact Request.unconfirms_after fun _ _ => .issue _ _ fun _ => rfl
  | update | increment | decrement =>
    exact Request.unconfirms_after fun m _ => q.mutate_unconfirms m
  | push | pull | drop => exact q.mutate_unconfirms _
  | delete => exact q.delete_unconfirms
  | deleteId id => exact delete_unconfirms _
  | truncate => exact .issue _ _ fun _ => rfl

theorem Operation.run_unacknowledged (op : Operation α) (m : Metered) :
    (op.request q).run (m.acknowledging false) = (((op.request q).run m).1.map op.unconfirm,
      ((op.request q).run m).2.acknowledging false) := by
  cases op with
  | read r => exact (r.unconfirms q).run m
  | write w => exact (w.unconfirms q).run m

end Query

inductive Step where
  | event (event : Event)
  | operation {α : Type} (q : Query) (op : Query.Operation α)

inductive Answered where
  | call (made : Call)
  | operation {α : Type} (op : Query.Operation α) (answer : Except QueryError α)

def Answered.unconfirm : Answered → Answered
  | .call made => .call { made with answer := made.answer.map made.command.unconfirm }
  | .operation op answer => .operation op (answer.map op.unconfirm)

structure Seen where
  answers : List Answered
  documents : List Document

def Seen.unconfirm (seen : Seen) : Seen :=
  { seen with answers := seen.answers.map Answered.unconfirm }

namespace Metered

def advance (m : Metered) : Step → Metered × List Seen
  | .event event =>
    let (m, calls) := m.step event
    (m, [⟨calls.map .call, m.collection.documents⟩])
  | .operation q op =>
    let (answer, m) := (op.request q).run m
    (m, [⟨[.operation op answer], m.collection.documents⟩])

theorem advance_unacknowledged (m : Metered) (next : Step) :
    (m.acknowledging false).advance next =
      ((m.advance next).1.acknowledging false, (m.advance next).2.map Seen.unconfirm) := by
  cases next with
  | event event =>
    cases event with
    | call command =>
      rw [advance, advance, step, step, run_unacknowledged]
      rfl
    | reset | offline | online => rfl
  | operation q op =>
    rw [advance, advance, op.run_unacknowledged]
    rfl

/-- From the same documents and under the same steps, a collection whose writes are not confirmed holds
after every step the documents of one whose writes are confirmed. Steps fail together and with the same
errors, reads give the same answers, and a write that does not fail gives the answer that stands for
no confirmation. -/
theorem unconfirmed_run (m : Metered) (steps : List Step) :
    let confirmed := Trace.run advance (m.acknowledging true) steps
    let unconfirmed := Trace.run advance (m.acknowledging false) steps
    unconfirmed.1 = confirmed.1.acknowledging false ∧
      unconfirmed.2 = confirmed.2.map Seen.unconfirm := by
  have himage := Trace.run_image advance advance (·.acknowledging false) Seen.unconfirm
    advance_unacknowledged (m.acknowledging true) steps
  have hstart : (m.acknowledging true).acknowledging false = m.acknowledging false := rfl
  rw [hstart] at himage
  exact ⟨congrArg Prod.fst himage, congrArg Prod.snd himage⟩

example :
    let q : Query := ⟨Plan.empty.filter (.compare "_id" "=" (.integer 1) false), .standard,
      [("upsert", .boolean true)]⟩
    let upsert := Query.Operation.write (.update (.map [("n", .integer 7)]))
    [true, false].map (fun acknowledged =>
      let (answer, m) := (upsert.request q).run (.ofCollection (.empty "numbers" acknowledged))
      (answer, m.collection.documents)) =
    [(.ok 1, [[("_id", .int32 1), ("n", .int32 7)]]), (.ok 0, [[("_id", .int32 1), ("n", .int32 7)]])] :=
  rfl

end Metered

end RelDoc
