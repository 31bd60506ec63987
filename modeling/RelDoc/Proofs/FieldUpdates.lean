import RelDoc.Proofs.PathWrites
import RelDoc.Update

namespace RelDoc.Update

variable {d after : Document} {path : String} {argument : Value}

theorem increment_eq_ok (h : increment d path argument = .ok after) : ∃ v, after = d.set path v := by
  unfold increment at h
  split at h
  · split at h
    · exact ⟨_, (Except.ok.inj h).symm⟩
    · exact absurd h (by simp)
  · split at h
    · exact ⟨_, (Except.ok.inj h).symm⟩
    · exact absurd h (by simp)

theorem push_eq_ok {unique : Bool} (h : push unique d path argument = .ok after) :
    ∃ v, after = d.set path v := by
  unfold push at h
  rcases hnew : additions argument with e | new
  · rw [hnew] at h
    exact absurd h (by simp [bind, Except.bind])
  · rw [hnew] at h
    simp only [bind, Except.bind] at h
    split at h
    · exact ⟨_, (Except.ok.inj h).symm⟩
    · exact ⟨_, (Except.ok.inj h).symm⟩
    · exact absurd h (by simp)

theorem pull_eq_ok {test : Value → Except StoreError Bool} (h : pull test d path = .ok after) :
    after = d ∨ ∃ v, after = d.set path v := by
  unfold pull at h
  split at h
  · rename_i items _
    rcases hkept : reject test items with e | kept
    · rw [hkept] at h
      exact absurd h (by simp [Except.map])
    · rw [hkept] at h
      exact Or.inr ⟨_, (Except.ok.inj h).symm⟩
  · exact Or.inl (Except.ok.inj h).symm

theorem pullAll_eq_ok (h : pullAll d path argument = .ok after) :
    after = d ∨ ∃ v, after = d.set path v := by
  unfold pullAll at h
  split at h
  · exact pull_eq_ok h
  · exact absurd h (by simp [missing])

theorem edit_eq_ok {op : String} (h : edit op d path argument = .ok after) :
    after = d ∨ (∃ v, after = d.set path v) ∨ op = "$unset" ∧ after = d.remove path := by
  unfold edit at h
  split at h
  · exact Or.inr (Or.inl ⟨_, (Except.ok.inj h).symm⟩)
  · exact Or.inr (Or.inr ⟨rfl, (Except.ok.inj h).symm⟩)
  · exact Or.inr (Or.inl (increment_eq_ok h))
  · exact Or.inr (Or.inl (push_eq_ok h))
  · exact Or.inr (Or.inl (push_eq_ok h))
  · exact (pull_eq_ok h).imp_right Or.inl
  · exact (pullAll_eq_ok h).imp_right Or.inl
  · exact absurd h (by simp)

theorem applied_eq_ok {update : Document} {changed : Bool} :
    applied update d = .ok (after, changed) ↔
      run update d = (after, .ok ()) ∧ changed = !Document.structEq after d := by
  unfold applied apply
  rcases run update d with ⟨left, e | ⟨⟩⟩
  · simp [Except.map]
  · simp only [Except.map, Except.ok.injEq, Prod.mk.injEq, and_true]
    constructor
    · rintro ⟨rfl, rfl⟩
      exact ⟨rfl, rfl⟩
    · rintro ⟨rfl, rfl⟩
      exact ⟨rfl, rfl⟩

def edits (update : Document) : List (String × String) :=
  update.flatMap fun field => (field.2.asDocument?.getD []).map fun edit => (field.1, edit.1)

theorem editAll_invariant {P : Document → Prop} {op : String} {fields : List (String × Value)}
    (hedit : ∀ path argument d after, (path, argument) ∈ fields →
      edit op d path argument = .ok after → P d → P after)
    {d : Document} (hd : P d) : P (editAll op fields d).1 := by
  induction fields generalizing d with
  | nil => exact hd
  | cons field rest ih =>
    obtain ⟨path, argument⟩ := field
    rw [editAll]
    split
    · rename_i after hafter
      apply ih
      · intro path' argument' d' after' hmem
        exact hedit path' argument' d' after' (List.mem_cons_of_mem _ hmem)
      · exact hedit path argument d after (by simp) hafter hd
    · exact hd

theorem run_invariant {P : Document → Prop} {update : Document}
    (hedit : ∀ op path argument d after, (op, path) ∈ edits update →
      edit op d path argument = .ok after → P d → P after)
    {d : Document} (hd : P d) : P (run update d).1 := by
  induction update generalizing d with
  | nil => exact hd
  | cons field rest ih =>
    obtain ⟨op, v⟩ := field
    cases v with
    | document fields =>
      have hfields : P (editAll op fields d).1 := by
        refine editAll_invariant (fun path argument d after hmem => ?_) hd
        apply hedit op path argument d after
        rw [edits, List.flatMap_cons, List.mem_append]
        exact Or.inl (List.mem_map.mpr ⟨(path, argument), hmem, rfl⟩)
      rw [run]
      split
      · rename_i left hleft
        rw [hleft] at hfields
        apply ih
        · intro op' path argument d after hmem
          apply hedit op' path argument d after
          rw [edits, List.flatMap_cons, List.mem_append]
          exact Or.inr hmem
        · exact hfields
      · rename_i left e hleft
        rw [hleft] at hfields
        exact hfields
    | _ => exact hd

theorem get?_edit {op key : String} (hpath : (Path.segments path).head? ≠ some key)
    (h : edit op d path argument = .ok after) : after.get? key = d.get? key := by
  rcases edit_eq_ok h with rfl | ⟨v, rfl⟩ | ⟨-, rfl⟩
  · rfl
  · exact Document.get?_set_of_ne hpath v d
  · exact Document.get?_remove_of_ne hpath d

theorem contains_edit {op key : String} (hkey : (op, path) ≠ ("$unset", key))
    (h : edit op d path argument = .ok after) (hd : d.contains key = true) :
    after.contains key = true := by
  rcases edit_eq_ok h with rfl | ⟨v, rfl⟩ | ⟨rfl, rfl⟩
  · exact hd
  · exact Document.contains_set path v hd
  · exact Document.contains_remove (fun hpath => hkey (by rw [hpath])) hd

theorem get?_applied {update : Document} {key : String} {changed : Bool}
    (hpaths : ∀ edit ∈ edits update, (Path.segments edit.2).head? ≠ some key)
    (h : applied update d = .ok (after, changed)) : after.get? key = d.get? key := by
  have hrun := (applied_eq_ok.mp h).1
  have hkept : (run update d).1.get? key = d.get? key := by
    refine run_invariant (P := fun e => e.get? key = d.get? key) ?_ rfl
    intro op path argument before left hmem hedit hbefore
    rw [get?_edit (hpaths _ hmem) hedit, hbefore]
  rwa [hrun] at hkept

theorem contains_applied {update : Document} {key : String} {changed : Bool}
    (hunset : ("$unset", key) ∉ edits update) (h : applied update d = .ok (after, changed))
    (hd : d.contains key = true) : after.contains key = true := by
  have hrun := (applied_eq_ok.mp h).1
  have hkept : (run update d).1.contains key = true := by
    refine run_invariant (P := fun e => e.contains key = true) ?_ hd
    intro op path argument before left hmem hedit hbefore
    exact contains_edit (fun heq => hunset (heq ▸ hmem)) hedit hbefore
  rwa [hrun] at hkept

theorem edit_of_applied {op : String} {changed : Bool}
    (h : applied [(op, .document [(path, argument)])] d = .ok (after, changed)) :
    edit op d path argument = .ok after := by
  have hrun := (applied_eq_ok.mp h).1
  simp only [run, editAll] at hrun
  rcases hedit : edit op d path argument with e | left
  · rw [hedit] at hrun
    simp at hrun
  · rw [hedit] at hrun
    obtain ⟨rfl, -⟩ := Prod.mk.inj hrun
    rfl

end RelDoc.Update

namespace RelDoc.Document

open RelDoc.Path

theorem lookup_set_of_apart {path other : String} (h : Apart (segments path) (segments other))
    (v : Value) (d : Document) : (d.set path v).lookup other = d.lookup other ↔
      displaced (segments path) (segments other) d = [] := by
  have hbefore : d.lookup other = (d.set path v).lookup other ++ _ := reach_setAt_of_apart h v d
  rw [hbefore]
  simp

/-- An update of one field keeps what another path reaches, where neither path leads through the other,
exactly if it changes nothing at all or nothing is displaced on the way that the paths share. -/
theorem lookup_applied_iff {d after : Document} {op path other : String} {argument : Value}
    {changed : Bool} (h : Update.applied [(op, .document [(path, argument)])] d = .ok (after, changed))
    (hapart : Apart (segments path) (segments other)) :
    after.lookup other = d.lookup other ↔
      after = d ∨ displaced (segments path) (segments other) d = [] := by
  rcases Update.edit_eq_ok (Update.edit_of_applied h) with rfl | ⟨v, rfl⟩ | ⟨-, rfl⟩
  · simp
  · rw [lookup_set_of_apart hapart]
    constructor
    · exact Or.inr
    · rintro (hsame | hnone)
      · rw [← lookup_set_of_apart hapart v, hsame]
      · exact hnone
  · have hkept : (d.remove path).lookup other = d.lookup other := reach_removeAt_of_apart hapart d
    refine iff_of_true hkept ?_
    by_cases hd : displaced (segments path) (segments other) d = []
    · exact Or.inr hd
    · exact Or.inl (removeAt_of_displaced hapart hd)

theorem lookup_applied_iff_element :
    let d : Document := [("items", .array [.document [("qty", .int32 1)], .document [("qty", .int32 2)]])]
    let after : Document := [("items", .document [("0", .document [("qty", .int32 5)])])]
    Update.applied [("$set", .document [("items.0.qty", .int32 5)])] d = .ok (after, true) ∧
      Apart (segments "items.0.qty") (segments "items.1") ∧
      d.lookup "items.1" = [.document [("qty", .int32 2)]] ∧
      after.lookup "items.1" ≠ d.lookup "items.1" := by
  intro d after
  have happlied : Update.applied [("$set", .document [("items.0.qty", .int32 5)])] d =
      .ok (after, true) := Update.applied_eq_ok.mpr ⟨rfl, rfl⟩
  have hapart : Apart (segments "items.0.qty") (segments "items.1") := by
    unfold Apart
    decide
  refine ⟨happlied, hapart, rfl, fun hsame => ?_⟩
  have hlost : displaced (segments "items.0.qty") (segments "items.1") d =
      [.document [("qty", .int32 2)]] := rfl
  rcases (lookup_applied_iff happlied hapart).mp hsame with hd | hnone
  · exact absurd hd (by simp [d, after])
  · rw [hlost] at hnone
    cases hnone

end RelDoc.Document
