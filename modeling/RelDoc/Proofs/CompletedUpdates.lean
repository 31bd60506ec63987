import RelDoc.Proofs.CollectionWrites

namespace RelDoc.Collection

open RelDoc.Filter

variable {filter operations options : Document} {docs : List Document} {c : Collection}

/-- What is stored in place of a document after an update that is done with it. A document that the
update leaves equal to what it was stays as it is. -/
def settled (filter operations d : Document) : Document :=
  if passes d filter then
    match Update.applied operations d with
    | .ok (after, true) => after
    | _ => d
  else d

theorem settled_of_passes {d after : Document} {changed : Bool} (hpass : passes d filter = true)
    (happlied : Update.applied operations d = .ok (after, changed)) :
    settled filter operations d = if changed then after else d := by
  rw [settled, if_pos hpass, happlied]
  cases changed <;> rfl

theorem settled_of_not_passes {d : Document} (hpass : passes d filter = false) :
    settled filter operations d = d := by
  rw [settled, hpass]
  rfl

def Accepts (filter operations d : Document) : Prop :=
  Evaluates d filter ∧ (passes d filter = true → ∃ r, Update.applied operations d = .ok r)

theorem sweep_cons_ok {d : Document} (h : (sweep filter operations true (d :: docs)).2 = .ok ()) :
    Accepts filter operations d ∧ (sweep filter operations true docs).2 = .ok () ∧
      (sweep filter operations true (d :: docs)).1.documents =
        settled filter operations d :: (sweep filter operations true docs).1.documents ∧
      (sweep filter operations true (d :: docs)).1.matched =
        (sweep filter operations true docs).1.matched + if passes d filter then 1 else 0 := by
  rw [sweep] at h ⊢
  rcases hd : holds d filter with e | _ | _
  · rw [hd] at h
    cases h
  · rw [hd] at h
    have hpass : passes d filter = false := passes_of_holds d hd
    rw [settled_of_not_passes hpass, hpass]
    exact ⟨⟨⟨false, hd⟩, by simp [hpass]⟩, h, rfl, rfl⟩
  · rw [hd] at h
    have hpass : passes d filter = true := passes_of_holds d hd
    rcases hu : Update.applied operations d with e | ⟨after, changed⟩
    · simp only [hu] at h
      cases h
    · simp only [hu] at h
      rw [settled_of_passes hpass hu, hpass]
      exact ⟨⟨⟨true, hd⟩, fun _ => ⟨_, hu⟩⟩, h, rfl, rfl⟩

theorem sweep_ok (h : (sweep filter operations true docs).2 = .ok ()) :
    (∀ d ∈ docs, Accepts filter operations d) ∧
      (sweep filter operations true docs).1.documents = docs.map (settled filter operations) ∧
      (sweep filter operations true docs).1.matched = (docs.filter (passes · filter)).length := by
  induction docs with
  | nil => exact ⟨by simp, rfl, rfl⟩
  | cons d rest ih =>
    obtain ⟨hd, hrest, hdocs, hmatched⟩ := sweep_cons_ok h
    obtain ⟨haccepts, hdocs', hmatched'⟩ := ih hrest
    refine ⟨List.forall_mem_cons.mpr ⟨hd, haccepts⟩, ?_, ?_⟩
    · rw [hdocs, hdocs', List.map_cons]
    · rw [hmatched, hmatched', List.filter_cons]
      split <;> simp

theorem run_update_settles (honline : c.online = true)
    (hmultiple : flag options "multiple" true = true)
    (hadds : flag options "upsert" false = true → ∃ d ∈ c.documents, passes d filter = true)
    {report : UpdateReport}
    (h : (c.run (.update filter operations options)).1 = .ok report) :
    (∀ d ∈ c.documents, Accepts filter operations d) ∧
      (c.run (.update filter operations options)).2 =
        { c with documents := c.documents.map (settled filter operations) } ∧
      (c.acknowledged = true → ∃ modified,
        report = ⟨true, (c.documents.filter (passes · filter)).length, modified, 0, none⟩) := by
  rw [run, if_pos honline, perform, updateMany, hmultiple] at h ⊢
  rcases hs : sweep filter operations true c.documents with ⟨s, e | ⟨⟩⟩
  · rw [hs] at h
    cases h
  · have hout : (sweep filter operations true c.documents).2 = .ok () := by rw [hs]
    obtain ⟨haccepts, hdocs, hmatched⟩ := sweep_ok hout
    rw [hs] at h hdocs hmatched
    have hstays : ¬(s.matched = 0 ∧ flag options "upsert" false = true) := by
      rintro ⟨hzero, hupsert⟩
      obtain ⟨d, hd, hpass⟩ := hadds hupsert
      rw [hmatched, List.length_eq_zero_iff] at hzero
      exact absurd (List.mem_filter.mpr ⟨hd, hpass⟩) (by rw [hzero]; exact List.not_mem_nil)
    simp only [if_neg hstays] at h ⊢
    refine ⟨haccepts, by rw [hdocs], fun hack => ⟨s.modified, ?_⟩⟩
    rw [← Except.ok.inj h, confirm, if_pos hack, hmatched]

theorem run_update_ok (honline : c.online = true) (hmultiple : flag options "multiple" true = true)
    (hupsert : flag options "upsert" false = false) {report : UpdateReport}
    (h : (c.run (.update filter operations options)).1 = .ok report) :
    (∀ d ∈ c.documents, Accepts filter operations d) ∧
      (c.run (.update filter operations options)).2 =
        { c with documents := c.documents.map (settled filter operations) } ∧
      (c.acknowledged = true →
        report.matched = (c.documents.filter (passes · filter)).length) := by
  obtain ⟨haccepts, hafter, hreport⟩ := run_update_settles honline hmultiple (by simp [hupsert]) h
  refine ⟨haccepts, hafter, fun hack => ?_⟩
  obtain ⟨modified, rfl⟩ := hreport hack
  rfl

theorem sweep_of_accepts (h : ∀ d ∈ docs, Accepts filter operations d) :
    (sweep filter operations true docs).2 = .ok () := by
  induction docs with
  | nil => rfl
  | cons d rest ih =>
    obtain ⟨⟨⟨b, hd⟩, happlied⟩, hrest⟩ := List.forall_mem_cons.mp h
    rw [sweep, hd]
    cases b with
    | false => exact ih hrest
    | true =>
      obtain ⟨⟨after, changed⟩, hu⟩ := happlied (passes_of_holds d hd)
      rw [hu]
      exact ih hrest

theorem run_update_of_accepts (honline : c.online = true)
    (hmultiple : flag options "multiple" true = true) (hupsert : flag options "upsert" false = false)
    (h : ∀ d ∈ c.documents, Accepts filter operations d) :
    ∃ report, (c.run (.update filter operations options)).1 = .ok report := by
  have hout := sweep_of_accepts h
  rw [run, if_pos honline, perform, updateMany, hmultiple, hupsert]
  rcases hs : sweep filter operations true c.documents with ⟨s, outcome⟩
  rw [hs] at hout
  obtain rfl : outcome = .ok () := hout
  simp only [Bool.false_eq_true, and_false, if_false]
  exact ⟨_, rfl⟩

end RelDoc.Collection
