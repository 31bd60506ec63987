import RelDoc.Proofs.ConfinedRequests

namespace RelDoc

namespace Document

theorem get?_append (d e : Document) (key : String) :
    get? (d ++ e) key = (get? d key).or (get? e key) := by
  induction d with
  | nil => rfl
  | cons field rest ih =>
    obtain ⟨k, v⟩ := field
    by_cases h : k = key
    · simp [get?, h]
    · simpa [get?, h] using ih

theorem get?_optionField (name key : String) (v : Option Value) :
    get? (Plan.optionField name v) key = if name = key then v else none := by
  rcases v with _ | v
  · simp [Plan.optionField, get?]
  · by_cases h : name = key <;> simp [Plan.optionField, get?, h]

end Document

namespace Sorting

theorem keys_ok {spec : Document} (h : ∀ field ∈ spec, ∃ x, field.2.numeric? = some x) :
    ∃ ks, keys spec = .ok ks := by
  induction spec with
  | nil => exact ⟨[], rfl⟩
  | cons field rest ih =>
    obtain ⟨name, v⟩ := field
    obtain ⟨⟨x, hx⟩, hrest⟩ := List.forall_mem_cons.mp h
    obtain ⟨ks, hks⟩ := ih hrest
    rw [keys, hx, hks]
    exact ⟨_, rfl⟩

end Sorting

namespace Plan

structure Whole (p : Plan) : Prop where
  groups : p.groups = []
  aggregate : p.aggregate = none
  distinct : p.distinct = false
  skip : p.skip = none
  limit : p.limit = none
  options : p.options = []

variable {p : Plan} {s : Settings}

theorem strategyFor_of_whole (h : p.Whole) (filter : Document) :
    p.strategyFor s filter = .ok (.find filter (p.findOptions s)) := by
  have hgrouped : (!p.groups.isEmpty || p.aggregate.isSome) = false := by
    simp [h.groups, h.aggregate]
  rw [strategyFor, hgrouped, h.distinct]
  rfl

theorem numeric_sortFields : ∀ field ∈ p.sortFields s, ∃ x, field.2.numeric? = some x := by
  apply Document.forall_ofFields (p := fun field => ∃ x, field.2.numeric? = some x)
  intro field hfield
  obtain ⟨⟨column, direction⟩, -, rfl⟩ := List.mem_map.mp hfield
  cases direction <;> exact ⟨_, rfl⟩

theorem get?_findOptions (h : p.options = []) :
    (p.findOptions s).get? "sort" = (nonempty? (p.sortFields s)).map .document ∧
      (p.findOptions s).get? "skip" = (positive? p.skip).map (countValue ·.toNat) ∧
      (p.findOptions s).get? "limit" = (positive? p.limit).map (countValue ·.toNat) := by
  simp [findOptions, h, Document.merge, Document.get?_append, Document.get?_optionField,
    Document.get?]

theorem sorted_findOptions (h : p.options = []) : ∃ arranged : List Document → List Document,
    ∀ docs, Collection.sorted (p.findOptions s) docs = .ok (arranged docs) ∧
      (arranged docs).Perm docs := by
  obtain ⟨hsort, -, -⟩ := get?_findOptions (s := s) h
  obtain ⟨ks, hks⟩ := Sorting.keys_ok (numeric_sortFields (p := p) (s := s))
  by_cases hnone : nonempty? (p.sortFields s) = none
  · refine ⟨id, fun docs => ⟨?_, .refl _⟩⟩
    rw [Collection.sorted, hsort, hnone]
    rfl
  · refine ⟨fun docs => docs.mergeSort fun a b => Sorting.compareBy a b ks != .gt,
      fun docs => ⟨?_, List.mergeSort_perm _ _⟩⟩
    have hsome : nonempty? (p.sortFields s) = some (p.sortFields s) := by
      unfold nonempty? at hnone ⊢
      rw [Option.filter_eq_none_iff] at hnone
      simp_all
    rw [Collection.sorted, hsort, hsome]
    simp [Sorting.sort, hks, Except.map]

end Plan

namespace Collection

theorem length_projected (options : Document) (docs : List Document) :
    (projected options docs).length = docs.length := by
  unfold projected
  split
  · exact List.length_map _
  · rfl

end Collection

end RelDoc
