import RelDoc.Proofs.FieldConditions
import RelDoc.Proofs.FirstRows
import RelDoc.Proofs.KeptIdentifiers
import RelDoc.Proofs.RequestedOrder

/-!
Columns of rows. A column is read off rows that were built for it: the value is written into a new
document below the same path. As long as no selected path leads through another, the document that is
built has the value, and no other, where the stored one has it.
-/

namespace RelDoc

open RelDoc.Path

namespace Document

variable {d out : Document} {column other : String} {columns : List String}

def ColumnsApart (c c' : String) : Prop := Apart (segments c) (segments c')

instance : Std.Symm ColumnsApart := ⟨fun _ _ => Apart.symm⟩

theorem ColumnsApart.ne (h : ColumnsApart column other) : column ≠ other := by
  rintro rfl
  exact h.1 (List.prefix_refl _)

theorem first?_eq_none : d.first? column = none ↔ d.lookup column = [] := by
  rw [first?, List.head?_eq_none_iff]

/-- What one document has first in a column, the other has there through documents only; and what is
missing in the one is missing in the other. -/
def Shows (d out : Document) (column : String) : Prop :=
  (∃ v, d.first? column = some v ∧ LeadsTo v (segments column) out) ∨
    d.first? column = none ∧ out.first? column = none

theorem Shows.first? (h : Shows d out column) : out.first? column = d.first? column := by
  rcases h with ⟨v, hv, hleads⟩ | ⟨hnone, hout⟩
  · rw [hv, Document.first?, lookup, hleads.reach]
    rfl
  · rw [hnone, hout]

theorem select_true (d out : Document) (column : String) : select d out column (.boolean true) =
    match d.first? column with
    | some v => out.set column v
    | none => out := rfl

theorem select_of_some {v : Value} (h : d.first? column = some v) (out : Document) :
    select d out column (.boolean true) = out.set column v := by
  rw [select_true, h]

theorem select_of_none (h : d.first? column = none) (out : Document) :
    select d out column (.boolean true) = out := by
  rw [select_true, h]

theorem first?_set_eq_none (hapart : ColumnsApart other column) (h : out.first? column = none)
    (v : Value) : (out.set other v).first? column = none := by
  rw [first?_eq_none] at h ⊢
  have hreach := reach_setAt_of_apart hapart v out
  change out.lookup column = _ at hreach
  rw [h] at hreach
  exact (List.append_eq_nil_iff.mp hreach.symm).1

theorem first?_select_eq_none (hapart : ColumnsApart other column)
    (h : out.first? column = none) :
    (select d out other (.boolean true)).first? column = none := by
  rcases hother : d.first? other with _ | v
  · rwa [select_of_none hother]
  · rw [select_of_some hother]
    exact first?_set_eq_none hapart h v

theorem Shows.select (h : Shows d out column) (hapart : ColumnsApart other column) :
    Shows d (select d out other (.boolean true)) column := by
  rcases h with ⟨v, hv, hleads⟩ | ⟨hnone, hout⟩
  · refine Or.inl ⟨v, hv, ?_⟩
    rcases hother : d.first? other with _ | w
    · rwa [select_of_none hother]
    · rw [select_of_some hother]
      exact hleads.setAt hapart w
  · exact Or.inr ⟨hnone, first?_select_eq_none hapart hout⟩

theorem shows_select (h : d.first? column = none → out.first? column = none) :
    Shows d (select d out column (.boolean true)) column := by
  rcases hv : d.first? column with _ | v
  · rw [select_of_none hv]
    exact Or.inr ⟨hv, h hv⟩
  · rw [select_of_some hv]
    exact Or.inl ⟨v, hv, leadsTo_set column v out⟩

def selectEach (d out : Document) (columns : List String) : Document :=
  columns.foldl (fun out c => select d out c (.boolean true)) out

theorem Shows.selectEach (h : Shows d out column)
    (hapart : ∀ c ∈ columns, ColumnsApart c column) : Shows d (d.selectEach out columns) column := by
  induction columns generalizing out with
  | nil => exact h
  | cons c rest ih =>
    obtain ⟨hc, hrest⟩ := List.forall_mem_cons.mp hapart
    exact ih (h.select hc) hrest

theorem shows_selectEach (hcolumns : columns.Pairwise ColumnsApart) (hmem : column ∈ columns)
    (h : d.first? column = none → out.first? column = none) :
    Shows d (d.selectEach out columns) column := by
  induction columns generalizing out with
  | nil => cases hmem
  | cons c rest ih =>
    obtain ⟨hc, hrest⟩ := List.pairwise_cons.mp hcolumns
    rcases List.mem_cons.mp hmem with rfl | hmem
    · exact (shows_select h).selectEach fun other hother => Apart.symm (hc other hother)
    · exact ih hrest hmem fun hnone => first?_select_eq_none (hc column hmem) (h hnone)

def columnSpec (columns : List String) : Document := columns.map fun c => (c, .boolean true)

theorem segments_id : segments "_id" = ["_id"] := by decide

theorem not_switchesIdOff_columnSpec (columns : List String) :
    ¬(columnSpec columns).SwitchesIdOff := by
  rintro ⟨flag, hflag, hoff⟩
  obtain ⟨c, -, hc⟩ := List.mem_map.mp (mem_of_get? hflag)
  rw [← (Prod.mk.inj hc).2] at hoff
  cases hoff

theorem project_columnSpec (hother : ∃ c ∈ columns, c ≠ "_id") (d : Document) :
    d.project (columnSpec columns) =
      d.selectEach (selectId d (columnSpec columns)) (columns.filter (· ≠ "_id")) := by
  have hinclusion : ¬isExclusion (columnSpec columns) = true := by
    intro hexclusion
    obtain ⟨c, hc, hne⟩ := hother
    have hoff := (isExclusion_iff.mp hexclusion).2 (c, .boolean true) (List.mem_map_of_mem hc) hne
    cases hoff
  rw [project, if_neg hinclusion, columnSpec, List.filter_map, List.foldl_map]
  rfl

theorem get?_selectId_columnSpec (columns : List String) (d : Document) (key : String) :
    (selectId d (columnSpec columns)).get? key = if key = "_id" then d.get? key else none := by
  split
  · rename_i hkey
    rw [hkey, get?_selectId (not_switchesIdOff_columnSpec columns)]
  · rename_i hkey
    unfold selectId
    split
    · rfl
    · rcases d.get? "_id" with _ | id
      · rfl
      · exact if_neg (Ne.symm hkey)

theorem first?_selectId (h : d.first? column = none) :
    (selectId d (columnSpec columns)).first? column = none := by
  rw [first?_eq_none, lookup] at h ⊢
  rcases hpath : segments column with _ | ⟨first, rest⟩
  · exact absurd hpath (segments_ne_nil column)
  · rw [hpath, Value.reach_document] at h
    rw [Value.reach_document, get?_selectId_columnSpec]
    split
    · exact h
    · rfl

theorem shows_selectId (columns : List String) (d : Document) :
    Shows d (selectId d (columnSpec columns)) "_id" := by
  have hdot : '.' ∉ "_id".toList := by decide
  rcases hid : d.first? "_id" with _ | id
  · exact Or.inr ⟨hid, first?_selectId hid⟩
  · refine Or.inl ⟨id, hid, ?_⟩
    rw [segments_id]
    change (selectId d (columnSpec columns)).get? "_id" = some id
    rw [get?_selectId_columnSpec, if_pos rfl, ← hid, first?_of_dotless hdot]

theorem shows_project_columnSpec (hcolumns : columns.Pairwise ColumnsApart)
    (hother : ∃ c ∈ columns, c ≠ "_id") (hmem : column ∈ columns) (d : Document) :
    Shows d (d.project (columnSpec columns)) column := by
  rw [project_columnSpec hother]
  by_cases hid : column = "_id"
  · subst hid
    apply (shows_selectId columns d).selectEach
    intro c hc
    obtain ⟨hc, hne⟩ := List.mem_filter.mp hc
    exact hcolumns.forall hc hmem (by simpa using hne)
  · refine shows_selectEach (hcolumns.filter _) (List.mem_filter.mpr ⟨hmem, by simpa using hid⟩) ?_
    exact first?_selectId

end Document

namespace Plan

open Document

variable {p : Plan} {columns : List String} {column : String}

end Plan

namespace Query

open Document

variable {q : Query} {column : String}

end Query

end RelDoc
