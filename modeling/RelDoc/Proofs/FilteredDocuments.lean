import RelDoc.Proofs.FilterEvaluation

namespace RelDoc.Filter

theorem partition_eq_ok {filter : Document} {docs : List Document}
    {r : List Document × List Document} :
    partition filter docs = .ok r ↔ (∀ d ∈ docs, Evaluates d filter) ∧
      r = (docs.filter (passes · filter), docs.filter (!passes · filter)) := by
  induction docs generalizing r with
  | nil => simp [partition, eq_comm]
  | cons d rest ih =>
    rw [partition, List.forall_mem_cons]
    rcases hd : holds d filter with e | b
    · simp [Evaluates, hd, bind, Except.bind]
    · have hev : Evaluates d filter := ⟨b, hd⟩
      have hp : passes d filter = b := passes_of_holds d hd
      rcases hrest : partition filter rest with e | ⟨passed, failed⟩
      · simp only [hrest, reduceCtorEq, false_iff, not_and] at ih
        simp only [bind, Except.bind, reduceCtorEq, false_iff, not_and, and_imp]
        exact fun _ hall _ => ih hall rfl
      · obtain ⟨hall, hr⟩ := ih.mp hrest
        obtain ⟨rfl, rfl⟩ := Prod.mk.inj hr
        rw [and_iff_right ⟨hev, hall⟩]
        cases b <;> simp [bind, Except.bind, pure, Except.pure, hp, eq_comm]

theorem select_eq_ok {filter : Document} {docs chosen : List Document} :
    select filter docs = .ok chosen ↔
      (∀ d ∈ docs, Evaluates d filter) ∧ chosen = docs.filter (passes · filter) := by
  unfold select
  rcases h : partition filter docs with e | r
  · simp only [Except.map, reduceCtorEq, false_iff, not_and]
    intro hall
    rw [partition_eq_ok.mpr ⟨hall, rfl⟩] at h
    exact absurd h (by simp)
  · obtain ⟨hall, rfl⟩ := partition_eq_ok.mp h
    rw [and_iff_right hall]
    simp [Except.map, eq_comm]

theorem select_nil (docs : List Document) : select [] docs = .ok docs := by
  refine select_eq_ok.mpr ⟨fun d _ => ⟨true, holds_nil d⟩, ?_⟩
  exact (List.filter_eq_self.mpr fun d _ => passes_of_holds d (holds_nil d)).symm

theorem select_filter {filter : Document} {docs chosen : List Document}
    (h : select filter docs = .ok chosen) {keep : Document → Bool}
    (hk : ∀ d ∈ docs, passes d filter = true → keep d = true) :
    select filter (docs.filter keep) = .ok chosen := by
  obtain ⟨hall, rfl⟩ := select_eq_ok.mp h
  refine select_eq_ok.mpr ⟨fun d hd => hall d (List.mem_filter.mp hd).1, ?_⟩
  rw [List.filter_filter]
  apply List.filter_congr
  intro d hd
  have := hk d hd
  cases hp : passes d filter <;> simp_all

end RelDoc.Filter
