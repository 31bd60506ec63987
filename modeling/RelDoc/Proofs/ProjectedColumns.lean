import RelDoc.Proofs.PluckedColumns

namespace RelDoc

open RelDoc.Path

namespace Value

variable {p : List String} {v : Value}

/-- The path comes to an array with a segment that is no index, and goes on in every element. -/
def FansOut (p : List String) (v : Value) : Prop :=
  ∃ front segment rest items, p = front ++ segment :: rest ∧ index? segment = none ∧
    array items ∈ v.reach front

theorem length_step_le_one {segment : String}
    (h : index? segment = none → ∀ items, v ≠ array items) : (v.step segment).length ≤ 1 := by
  cases v with
  | document fields => exact Option.length_toList_le
  | array items =>
    rcases hindex : index? segment with _ | i
    · exact absurd rfl (h hindex items)
    · rw [step, hindex]
      exact Option.length_toList_le
  | _ => exact Nat.zero_le 1

theorem length_reach_le_one (h : ¬v.FansOut p) : (v.reach p).length ≤ 1 := by
  induction p generalizing v with
  | nil => exact Nat.le_refl 1
  | cons segment rest ih =>
    have hstep : (v.step segment).length ≤ 1 := by
      apply length_step_le_one
      rintro hindex items rfl
      exact h ⟨[], segment, rest, items, rfl, hindex, List.mem_singleton_self _⟩
    rw [reach]
    rcases hnext : v.step segment with _ | ⟨w, _ | ⟨w', more⟩⟩
    · exact Nat.zero_le 1
    · rw [List.flatMap_singleton]
      apply ih
      rintro ⟨front, next, more, items, rfl, hindex, hitems⟩
      refine h ⟨segment :: front, next, more, items, rfl, hindex, ?_⟩
      rwa [reach, hnext, List.flatMap_singleton]
    · rw [hnext] at hstep
      simp at hstep

end Value

namespace Document

variable {d out : Document} {column : String} {columns : List String}

theorem Shows.lookup (h : Shows d out column) : out.lookup column = (d.lookup column).take 1 := by
  rw [List.take_one, ← Document.first?]
  rcases h with ⟨v, hv, hleads⟩ | ⟨hnone, hout⟩
  · rw [hv, Document.lookup, hleads.reach]
    rfl
  · rw [hnone, first?_eq_none.mp hout]
    rfl

/-- A projection on columns shows the first value of each, and hence all values of a column exactly if
there is at most one, which is so for every column that does not fan out. -/
theorem lookup_project_iff (hcolumns : columns.Pairwise ColumnsApart)
    (hother : ∃ c ∈ columns, c ≠ "_id") (hmem : column ∈ columns) (d : Document) :
    let shown := d.project (columnSpec columns)
    shown.lookup column = (d.lookup column).take 1 ∧
      (shown.lookup column = d.lookup column ↔ (d.lookup column).length ≤ 1) ∧
      (¬(Value.document d).FansOut (segments column) → shown.lookup column = d.lookup column) := by
  intro shown
  have hfirst : shown.lookup column = (d.lookup column).take 1 :=
    (shows_project_columnSpec hcolumns hother hmem d).lookup
  have hiff : shown.lookup column = d.lookup column ↔ (d.lookup column).length ≤ 1 := by
    rw [hfirst, List.take_eq_self_iff]
  exact ⟨hfirst, hiff, fun hfans => hiff.mpr (Value.length_reach_le_one hfans)⟩

theorem lookup_project_iff_prices :
    let item (price : Int32) : Value := .document [("price", .int32 price)]
    let d : Document := [("_id", .int32 1), ("items", .array [item 5, item 12])]
    let columns := ["items.price", "items.0.qty"]
    columns.Pairwise ColumnsApart ∧ (∃ c ∈ columns, c ≠ "_id") ∧ "items.price" ∈ columns ∧
      d.lookup "items.price" = [.int32 5, .int32 12] ∧
      (d.project (columnSpec columns)).lookup "items.price" = [.int32 5] ∧
      (d.project (columnSpec columns)).lookup "items.price" ≠ d.lookup "items.price" := by
  intro item d columns
  have hcolumns : columns.Pairwise ColumnsApart := by
    refine List.pairwise_pair.mpr ?_
    constructor <;> decide
  have hother : ∃ c ∈ columns, c ≠ "_id" := ⟨"items.price", by decide, by decide⟩
  have hmem : "items.price" ∈ columns := by decide
  have hall : d.lookup "items.price" = [.int32 5, .int32 12] := rfl
  obtain ⟨hfirst, hiff, -⟩ := lookup_project_iff hcolumns hother hmem d
  refine ⟨hcolumns, hother, hmem, hall, by rw [hfirst, hall]; rfl, fun hsame => ?_⟩
  have hshort := hiff.mp hsame
  rw [hall] at hshort
  exact absurd hshort (by decide)

end Document

end RelDoc
