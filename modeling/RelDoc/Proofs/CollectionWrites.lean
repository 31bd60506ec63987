import Mathlib.Data.List.Forall2
import RelDoc.Collection
import RelDoc.Proofs.DocumentFields
import RelDoc.Proofs.FilteredDocuments

namespace RelDoc.Collection

variable {filter operations : Document} {multiple : Bool}

def WhollyUpdated (filter operations before after : Document) : Prop :=
  after = before ∨ Filter.holds before filter = .ok true ∧
    ∃ changed, Update.applied operations before = .ok (after, changed)

def Stops (filter operations : Document) (e : StoreError) (d : Document) : Prop :=
  Filter.holds d filter = .error e ∨
    Filter.holds d filter = .ok true ∧ Update.applied operations d = .error e

theorem wholly_kept {d after : Document} {changed : Bool} (hd : Filter.holds d filter = .ok true)
    (hu : Update.applied operations d = .ok (after, changed)) :
    WhollyUpdated filter operations d (if changed then after else d) := by
  cases changed with
  | true => exact Or.inr ⟨hd, true, hu⟩
  | false => exact Or.inl rfl

theorem sweep_cons (filter operations : Document) (multiple : Bool) (d : Document)
    (rest : List Document) :
    (∃ e, Stops filter operations e d ∧
      (sweep filter operations multiple (d :: rest)).1.documents = d :: rest ∧
      (sweep filter operations multiple (d :: rest)).2 = .error e) ∨
    ∃ d', WhollyUpdated filter operations d d' ∧
      ((sweep filter operations multiple (d :: rest)).1.documents =
          d' :: (sweep filter operations multiple rest).1.documents ∧
        (sweep filter operations multiple (d :: rest)).2 =
          (sweep filter operations multiple rest).2 ∨
      (sweep filter operations multiple (d :: rest)).1.documents = d' :: rest ∧
        (sweep filter operations multiple (d :: rest)).2 = .ok ()) := by
  rw [sweep]
  rcases hd : Filter.holds d filter with e | _ | _
  · exact Or.inl ⟨e, Or.inl hd, rfl, rfl⟩
  · exact Or.inr ⟨d, Or.inl rfl, Or.inl ⟨rfl, rfl⟩⟩
  · dsimp only
    split
    · rename_i e hu
      exact Or.inl ⟨e, Or.inr ⟨hd, hu⟩, rfl, rfl⟩
    · rename_i after changed hu
      refine Or.inr ⟨_, wholly_kept hd hu, ?_⟩
      cases multiple with
      | true => exact Or.inl ⟨rfl, rfl⟩
      | false => exact Or.inr ⟨rfl, rfl⟩

theorem forall₂_untouched (docs : List Document) :
    List.Forall₂ (WhollyUpdated filter operations) docs docs :=
  List.forall₂_same.mpr fun _ _ => Or.inl rfl

theorem sweep_documents (filter operations : Document) (multiple : Bool) (docs : List Document) :
    List.Forall₂ (WhollyUpdated filter operations) docs
      (sweep filter operations multiple docs).1.documents := by
  induction docs with
  | nil => exact .nil
  | cons d rest ih =>
    rcases sweep_cons filter operations multiple d rest with
      ⟨e, -, hdocs, -⟩ | ⟨d', hwhole, ⟨hdocs, -⟩ | ⟨hdocs, -⟩⟩
    · rw [hdocs]
      exact forall₂_untouched _
    · rw [hdocs]
      exact .cons hwhole ih
    · rw [hdocs]
      exact .cons hwhole (forall₂_untouched rest)

theorem sweep_error {docs : List Document} {e : StoreError}
    (h : (sweep filter operations multiple docs).2 = .error e) : ∃ passed d rest kept,
      docs = passed ++ d :: rest ∧ Stops filter operations e d ∧
      (sweep filter operations multiple docs).1.documents = kept ++ d :: rest ∧
      List.Forall₂ (WhollyUpdated filter operations) passed kept := by
  induction docs with
  | nil => exact absurd h (by simp [sweep])
  | cons d rest ih =>
    rcases sweep_cons filter operations multiple d rest with
      ⟨e', hstops, hdocs, hout⟩ | ⟨d', hwhole, ⟨hdocs, hout⟩ | ⟨-, hout⟩⟩
    · rw [hout] at h
      obtain rfl := Except.error.inj h
      exact ⟨[], d, rest, [], rfl, hstops, hdocs, .nil⟩
    · rw [hout] at h
      obtain ⟨passed, stop, after, kept, rfl, hstops, hkept, hpassed⟩ := ih h
      refine ⟨d :: passed, stop, after, d' :: kept, rfl, hstops, ?_, .cons hwhole hpassed⟩
      rw [hdocs, hkept]
      rfl
    · rw [hout] at h
      exact absurd h (by simp)

theorem sweep_unmatched {docs : List Document}
    (h : (sweep filter operations multiple docs).1.matched = 0) :
    (sweep filter operations multiple docs).1.documents = docs := by
  induction docs with
  | nil => rfl
  | cons d rest ih =>
    rw [sweep] at h ⊢
    split
    · rfl
    · rename_i hd
      rw [hd] at h
      exact congrArg (d :: ·) (ih h)
    · rename_i hd
      rw [hd] at h
      split
      · rfl
      · rename_i hu
        rw [hu] at h
        cases multiple <;> simp at h

theorem store_eq (c : Collection) (d : Document) : ∃ stored id handedOut,
    c.store d = ({ c with documents := c.documents ++ [stored], handedOut := handedOut }, id) ∧
      stored.get? "_id" = some id ∧ (d.get? "_id" = some id ∨ ∃ o, id = .objectId o) := by
  unfold store
  split
  · rename_i id hid
    exact ⟨d, id, c.handedOut, rfl, hid, Or.inl hid⟩
  · exact ⟨_, _, _, rfl, by simp [Document.get?], Or.inr ⟨_, rfl⟩⟩

theorem storeAll_documents (c : Collection) (docs : List Document) : ∃ stored,
    (c.storeAll docs).1.documents = c.documents ++ stored ∧
      ∀ d ∈ stored, d.contains "_id" = true := by
  induction docs generalizing c with
  | nil => exact ⟨[], (List.append_nil _).symm, by simp⟩
  | cons d rest ih =>
    obtain ⟨stored, id, handedOut, hstore, hid, -⟩ := c.store_eq d
    rw [storeAll, hstore]
    obtain ⟨more, hmore, hids⟩ := ih { c with documents := c.documents ++ [stored], handedOut }
    refine ⟨stored :: more, ?_, List.forall_mem_cons.mpr ⟨?_, hids⟩⟩
    · dsimp only at hmore ⊢
      rw [hmore, List.append_assoc]
      rfl
    · exact Document.contains_of_get? hid

theorem run_delete (filter : Document) (c : Collection) : ∃ keep : Document → Bool,
    (c.run (.delete filter)).2.documents = c.documents.filter keep ∧
      ∀ d ∈ c.documents, keep d = false → Filter.holds d filter = .ok true := by
  unfold run
  split
  · simp only [perform, deleteMany]
    split
    · exact ⟨fun _ => true, by simp, by simp⟩
    · rename_i passed failed h
      obtain ⟨-, he⟩ := Filter.partition_eq_ok.mp h
      obtain ⟨-, rfl⟩ := Prod.mk.inj he
      exact ⟨_, rfl, fun d _ hk => (Filter.passes_iff d filter).mp (by simpa using hk)⟩
  · exact ⟨fun _ => true, by simp, by simp⟩

theorem run_update (filter : Document) (c : Collection) (operations options : Document) :
    ∃ kept added, (c.run (.update filter operations options)).2.documents = kept ++ added ∧
      List.Forall₂ (WhollyUpdated filter operations) c.documents kept ∧
      (added = [] ∨ kept = c.documents) ∧ ∀ d ∈ added, d.contains "_id" = true := by
  unfold run
  split
  · have hsweep := sweep_documents filter operations (flag options "multiple" true) c.documents
    simp only [perform, updateMany]
    split
    · exact ⟨_, [], by simp, hsweep, Or.inl rfl, by simp⟩
    · split
      · rename_i hnone
        split
        · exact ⟨_, [], by simp, hsweep, Or.inl rfl, by simp⟩
        · rename_i seed _ _
          obtain ⟨stored, id, handedOut, hstore, hid, -⟩ := store_eq _ seed
          rw [hstore]
          refine ⟨_, _, rfl, hsweep, Or.inr (sweep_unmatched hnone.1), ?_⟩
          exact List.forall_mem_singleton.mpr (Document.contains_of_get? hid)
      · exact ⟨_, [], by simp, hsweep, Or.inl rfl, by simp⟩
  · exact ⟨c.documents, [], by simp, forall₂_untouched _, Or.inl rfl, by simp⟩

end RelDoc.Collection
