import RelDoc.Proofs.CollectionWrites
import RelDoc.Proofs.FieldUpdates

namespace RelDoc.Collection

inductive Event : Type 1 where
  | call {α : Type} (command : Command α)
  | goOffline
  | goOnline

def Event.apply (c : Collection) : Event → Collection
  | .call command => (c.run command).2
  | .goOffline => { c with online := false }
  | .goOnline => { c with online := true }

def after (c : Collection) (events : List Event) : Collection := events.foldl Event.apply c

def Event.Unsets (key : String) : Event → Prop
  | .call (.update _ operations _) => ("$unset", key) ∈ Update.edits operations
  | _ => False

def Identified (c : Collection) : Prop := ∀ d ∈ c.documents, d.contains "_id" = true

variable {c : Collection}

theorem identified_append (hc : c.Identified) {stored : List Document}
    (h : ∀ d ∈ stored, d.contains "_id" = true) {c' : Collection}
    (hdocs : c'.documents = c.documents ++ stored) : c'.Identified := by
  rw [Identified, hdocs, List.forall_mem_append]
  exact ⟨hc, h⟩

theorem identified_of_forall₂ {filter operations : Document}
    (hunset : ("$unset", "_id") ∉ Update.edits operations) {docs kept : List Document}
    (h : List.Forall₂ (WhollyUpdated filter operations) docs kept)
    (hdocs : ∀ d ∈ docs, d.contains "_id" = true) : ∀ d ∈ kept, d.contains "_id" = true := by
  induction h with
  | nil => exact hdocs
  | @cons d d' docs kept hone hrest ih =>
    obtain ⟨hd, hmore⟩ := List.forall_mem_cons.mp hdocs
    refine List.forall_mem_cons.mpr ⟨?_, ih hmore⟩
    rcases hone with rfl | ⟨-, changed, happlied⟩
    · exact hd
    · exact Update.contains_applied hunset happlied hd

theorem identified_perform {α : Type} {command : Command α}
    (hunset : ¬(Event.call command).Unsets "_id") (hc : c.Identified) :
    (c.run command).2.Identified := by
  cases command with
  | update filter operations options =>
    obtain ⟨kept, added, hdocs, hkept, -, hadded⟩ := run_update filter c operations options
    rw [Identified, hdocs, List.forall_mem_append]
    exact ⟨identified_of_forall₂ hunset hkept hc, hadded⟩
  | delete filter =>
    obtain ⟨keep, hkeep, -⟩ := run_delete filter c
    rw [Identified, hkeep]
    intro d hd
    exact hc d (List.mem_filter.mp hd).1
  | insertOne d =>
    unfold run
    split
    · obtain ⟨stored, id, handedOut, hstore, hid, -⟩ := c.store_eq d
      rw [perform, hstore]
      apply identified_append hc _ rfl
      exact List.forall_mem_singleton.mpr (Document.contains_of_get? hid)
    · exact hc
  | insertMany docs =>
    unfold run
    split
    · obtain ⟨stored, hdocs, hids⟩ := c.storeAll_documents docs
      exact identified_append hc hids hdocs
    · exact hc
  | _ =>
    unfold run
    split <;> exact hc

theorem identified_apply {event : Event} (hunset : ¬event.Unsets "_id") (hc : c.Identified) :
    (event.apply c).Identified := by
  cases event with
  | call command => exact identified_perform hunset hc
  | goOffline => exact hc
  | goOnline => exact hc

theorem identified_after {events : List Event} (hunset : ∀ event ∈ events, ¬event.Unsets "_id")
    (hc : c.Identified) : (c.after events).Identified := by
  induction events generalizing c with
  | nil => exact hc
  | cons event rest ih =>
    obtain ⟨hevent, hrest⟩ := List.forall_mem_cons.mp hunset
    exact ih hrest (identified_apply hevent hc)

/-- The documents of a collection that started empty all have identifiers, if no update of its history
removes the field by name. An update keeps the identifiers of the documents that are there, if none of
its paths starts at this field. -/
theorem identifiers_kept :
    (∀ (name : String) (acknowledged : Bool) (events : List Event),
      (∀ event ∈ events, ¬event.Unsets "_id") →
      ((empty name acknowledged).after events).Identified) ∧
    ∀ (c : Collection) (filter operations options : Document),
      (∀ edit ∈ Update.edits operations, (Path.segments edit.2).head? ≠ some "_id") →
      ∃ kept added, (c.run (.update filter operations options)).2.documents = kept ++ added ∧
        List.Forall₂ (fun before after => after.get? "_id" = before.get? "_id") c.documents kept := by
  refine ⟨fun name acknowledged events hunset => ?_, fun c filter operations options hpaths => ?_⟩
  · apply identified_after hunset
    intro d hd
    exact absurd hd (by simp [empty])
  · obtain ⟨kept, added, hdocs, hkept, -⟩ := run_update filter c operations options
    refine ⟨kept, added, hdocs, hkept.imp fun before after hone => ?_⟩
    rcases hone with rfl | ⟨-, changed, happlied⟩
    · rfl
    · exact Update.get?_applied hpaths happlied

theorem identifiers_kept_rename :
    let rename : Document := [("$set", .document [("name.first", .string "Ada")]),
      ("$unset", .document [("_id.part", .int32 1)])]
    let rise : Document := [("$inc", .document [("age", .int32 1)])]
    let events : List Event := [.call (.insertMany [[("age", .int32 36)], [("_id", .int32 7)]]),
      .call (.update [] rename []), .goOffline, .call (.delete []), .goOnline,
      .call (.update [("age", .int32 1)] rise [("upsert", .boolean true)])]
    let c := (empty "people" true).after events
    (∀ event ∈ events, ¬event.Unsets "_id") ∧ c.documents.length = 3 ∧ c.Identified ∧
      (∀ edit ∈ Update.edits rise, (Path.segments edit.2).head? ≠ some "_id") ∧
      ∃ kept added, (c.run (.update [] rise [])).2.documents = kept ++ added ∧
        List.Forall₂ (fun before after => after.get? "_id" = before.get? "_id") c.documents kept := by
  intro rename rise events c
  have hunset : ∀ event ∈ events, ¬event.Unsets "_id" := by
    have hrename : ("$unset", "_id") ∉ Update.edits rename := by decide
    have hrise : ("$unset", "_id") ∉ Update.edits rise := by decide
    simp [events, Event.Unsets, hrename, hrise]
  have hpaths : ∀ edit ∈ Update.edits rise, (Path.segments edit.2).head? ≠ some "_id" := by decide
  obtain ⟨hidentified, hkept⟩ := identifiers_kept
  exact ⟨hunset, rfl, hidentified "people" true events hunset, hpaths, hkept c [] rise [] hpaths⟩

theorem identifiers_not_kept :
    let ada : Collection :=
      (empty "people" true).after [.call (.insertOne [("_id", .int32 1), ("name", .string "Ada")])]
    let unset : Event := .call (.update [] [("$unset", .document [("_id", .int32 1)])] [])
    let set : Event := .call (.update [] [("$set", .document [("_id", .int32 2)])] [])
    ¬(ada.after [unset]).Identified ∧
      ada.documents.map (·.get? "_id") = [some (.int32 1)] ∧
      (ada.after [set]).documents.map (·.get? "_id") = [some (.int32 2)] := by
  intro ada unset set
  refine ⟨fun h => ?_, rfl, rfl⟩
  have hmem : [("name", .string "Ada")] ∈ (ada.after [unset]).documents := List.mem_singleton_self _
  exact absurd (h _ hmem) (by decide)

end RelDoc.Collection
