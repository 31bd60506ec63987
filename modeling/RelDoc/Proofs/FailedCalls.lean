import RelDoc.Proofs.CollectionWrites

namespace RelDoc

def Command.isUpdate {α : Type} : Command α → Bool
  | .update _ _ _ => true
  | _ => false

namespace Collection

theorem failed_eq {α : Type} {c : Collection} {command : Command α} {e : StoreError}
    (hkind : command.isUpdate = false) (h : (c.run command).1 = .error e) :
    (c.run command).2 = c := by
  unfold run at h ⊢
  split
  · rename_i honline
    rw [if_pos honline] at h
    cases command with
    | update filter operations options => exact absurd hkind (by simp [Command.isUpdate])
    | insertOne d => exact absurd h (by simp [perform])
    | insertMany docs => exact absurd h (by simp [perform])
    | delete filter =>
      simp only [perform, deleteMany] at h ⊢
      split
      · rfl
      · rename_i hparts
        rw [hparts] at h
        exact absurd h (by simp)
    | _ => rfl
  · rfl

theorem failed_update {c : Collection} {filter operations options : Document} {e : StoreError}
    (h : (c.run (.update filter operations options)).1 = .error e) :
    (c.run (.update filter operations options)).2 = c ∨
      ∃ passed d rest kept, c.documents = passed ++ d :: rest ∧ Stops filter operations e d ∧
        (c.run (.update filter operations options)).2 = { c with documents := kept ++ d :: rest } ∧
        List.Forall₂ (WhollyUpdated filter operations) passed kept := by
  unfold run at h ⊢
  split
  · rename_i honline
    rw [if_pos honline] at h
    simp only [perform, updateMany] at h ⊢
    rcases hout : (sweep filter operations (flag options "multiple" true) c.documents).2 with e' | ⟨⟩
    · rw [hout] at h
      obtain rfl := Except.error.inj h
      obtain ⟨passed, d, rest, kept, hdocs, hstops, hkept, hpassed⟩ := sweep_error hout
      refine Or.inr ⟨passed, d, rest, kept, hdocs, hstops, ?_, hpassed⟩
      dsimp only
      rw [hkept]
    · rw [hout] at h
      left
      dsimp only at h ⊢
      split at h
      · rename_i hnone
        rw [if_pos hnone]
        split
        · rw [sweep_unmatched hnone.1]
        · rename_i hseed
          rw [hseed] at h
          exact absurd h (by simp)
      · exact absurd h (by simp)
  · exact Or.inl rfl

/-- A call that fails and is no update leaves the collection as it is. An update that fails neither
adds nor removes documents: from some position on all are as they were, and those before are as they
were or updated as a whole. Unless it changed nothing, it is the document at this position that it
failed on. -/
theorem failed_call_atomic (c : Collection) :
    (∀ {α : Type} (command : Command α) (e : StoreError), command.isUpdate = false →
      (c.run command).1 = .error e → (c.run command).2 = c) ∧
    ∀ (filter operations options : Document) (e : StoreError),
      (c.run (.update filter operations options)).1 = .error e → ∃ k kept,
        (c.run (.update filter operations options)).2 =
          { c with documents := kept ++ c.documents.drop k } ∧
        (kept ++ c.documents.drop k).length = c.documents.length ∧
        List.Forall₂ (WhollyUpdated filter operations) (c.documents.take k) kept ∧
        (kept = c.documents.take k ∨ ∃ d, c.documents[k]? = some d ∧ Stops filter operations e d) := by
  refine ⟨fun command e hkind h => failed_eq hkind h, fun filter operations options e h => ?_⟩
  rcases failed_update h with hsame | ⟨passed, d, rest, kept, hdocs, hstops, hafter, hpassed⟩
  · exact ⟨0, [], hsame, rfl, .nil, Or.inl rfl⟩
  · have htake : c.documents.take passed.length = passed := by rw [hdocs, List.take_left]
    have hdrop : c.documents.drop passed.length = d :: rest := by rw [hdocs, List.drop_left]
    refine ⟨passed.length, kept, ?_, ?_, ?_, Or.inr ⟨d, ?_, hstops⟩⟩
    · rw [hdrop, hafter]
    · rw [hdrop, hdocs, List.length_append, List.length_append, hpassed.length_eq]
    · rw [htake]
      exact hpassed
    · rw [hdocs]
      simp

theorem failed_call_atomic_increment :
    let operations : Document :=
      [("$set", .document [("a", .int32 2)]), ("$inc", .document [("n", .int32 1)])]
    let c : Collection := { empty "counters" true with documents :=
      [[("a", .int32 1), ("n", .int32 1)], [("a", .int32 1), ("n", .null)],
        [("a", .int32 1), ("n", .int32 2)]] }
    let offline : Collection := { c with online := false }
    (offline.run (.count [])).1 = .error (.offline "counters") ∧
      (offline.run (.count [])).2 = offline ∧
      (c.run (.update [] operations [])).1 = .error (.cannotIncrement "n" "Null") ∧
      (c.run (.update [] operations [])).2.documents =
        [[("a", .int32 2), ("n", .int32 2)], [("a", .int32 1), ("n", .null)],
          [("a", .int32 1), ("n", .int32 2)]] ∧
      ∃ k kept, (c.run (.update [] operations [])).2.documents = kept ++ c.documents.drop k ∧
        List.Forall₂ (WhollyUpdated [] operations) (c.documents.take k) kept := by
  intro operations c offline
  have hcount : (offline.run (.count [])).1 = .error (.offline "counters") := rfl
  have hupdate : (c.run (.update [] operations [])).1 = .error (.cannotIncrement "n" "Null") := rfl
  obtain ⟨k, kept, hafter, -, hkept, -⟩ := (failed_call_atomic c).2 [] operations [] _ hupdate
  refine ⟨hcount, (failed_call_atomic offline).1 _ _ rfl hcount, hupdate, rfl, k, kept, ?_, hkept⟩
  rw [hafter]

end Collection

end RelDoc
