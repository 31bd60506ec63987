import RelDoc.Plan.Strategy
import RelDoc.Plan.Builder
import RelDoc.Pipeline.Basic
import RelDoc.Proofs.PathWrites

namespace RelDoc.Document

open RelDoc.Path

variable {d spec : Document} {key : String}

def NothingBelow (key : String) (spec : Document) : Prop :=
  ∀ field ∈ spec, (segments field.1).head? = some key → field.1 = key

def SwitchesIdOff (spec : Document) : Prop :=
  ∃ flag, spec.get? "_id" = some flag ∧ flag.isFalsyFlag = true

/-- The projection has a rule for `_id` that is no such flag, and switches all else off. -/
def AsksForIdAlone (spec : Document) : Prop :=
  (∃ rule, spec.get? "_id" = some rule ∧ rule.isFalsyFlag = false) ∧
    ∀ field ∈ spec, field.1 ≠ "_id" → field.2.isFalsyFlag = true

theorem not_switchesIdOff (h : spec.AsksForIdAlone) : ¬spec.SwitchesIdOff := by
  obtain ⟨⟨rule, hrule, hon⟩, -⟩ := h
  rintro ⟨flag, hflag, hoff⟩
  rw [hrule] at hflag
  rw [← Option.some.inj hflag, hon] at hoff
  cases hoff

theorem isExclusion_iff : spec.isExclusion = true ↔
    spec ≠ [] ∧ ∀ field ∈ spec, field.1 ≠ "_id" → field.2.isFalsyFlag = true := by
  rw [isExclusion, Bool.and_eq_true, Bool.not_eq_true', List.isEmpty_eq_false_iff,
    List.all_eq_true]
  refine and_congr_right fun _ => forall₂_congr fun field _ => ?_
  rw [Bool.or_eq_true, beq_iff_eq, Ne, Decidable.or_iff_not_imp_left]

theorem get?_remove (hkey : segments key = [key]) {path : String}
    (hpath : (segments path).head? = some key → path = key) (d : Document) :
    (d.remove path).get? key = if path = key then none else d.get? key := by
  split
  · rename_i heq
    rw [heq, remove, removeReturning, hkey]
    exact get?_erase d key
  · rename_i hne
    exact get?_remove_of_ne (fun hhead => hne (hpath hhead)) d

theorem get?_removeEach (hkey : segments key = [key]) (hbelow : spec.NothingBelow key)
    (d : Document) : (spec.foldl (fun out field => out.remove field.1) d).get? key =
      if (spec.get? key).isSome then none else d.get? key := by
  induction spec generalizing d with
  | nil => rfl
  | cons field rest ih =>
    obtain ⟨name, v⟩ := field
    obtain ⟨hfield, hrest⟩ := List.forall_mem_cons.mp hbelow
    rw [List.foldl_cons, ih hrest, get?_remove hkey hfield]
    by_cases hname : name = key
    · simp [get?, hname]
    · simp [get?, hname]

theorem get?_select_of_ne {out : Document} {name : String} (hne : name ≠ key)
    (hhead : (segments name).head? ≠ some key) (rule : Value) :
    (select d out name rule).get? key = out.get? key := by
  unfold select
  split
  · rfl
  · split
    · exact get?_insert_of_ne out name _ hne
    · split
      · exact get?_set_of_ne hhead _ out
      · rfl

theorem get?_selectEach_of_ne (hbelow : spec.NothingBelow key)
    (hne : ∀ field ∈ spec, field.1 ≠ key) (out : Document) :
    (spec.foldl (fun out field => select d out field.1 field.2) out).get? key = out.get? key := by
  induction spec generalizing out with
  | nil => rfl
  | cons field rest ih =>
    obtain ⟨hfield, hrest⟩ := List.forall_mem_cons.mp hbelow
    obtain ⟨hname, hnames⟩ := List.forall_mem_cons.mp hne
    rw [List.foldl_cons, ih hrest hnames, get?_select_of_ne hname fun hhead => hname (hfield hhead)]

theorem get?_selectId (hoff : ¬spec.SwitchesIdOff) :
    (selectId d spec).get? "_id" = d.get? "_id" := by
  have hflag : ¬((spec.get? "_id").map Value.isFalsyFlag).getD false = true := by
    intro h
    rcases hrule : spec.get? "_id" with _ | rule
    · rw [hrule] at h
      cases h
    · rw [hrule] at h
      exact hoff ⟨rule, hrule, h⟩
  rw [selectId, if_neg hflag]
  rcases d.get? "_id" with _ | id <;> rfl

theorem selectId_of_switchesIdOff (hoff : spec.SwitchesIdOff) : selectId d spec = [] := by
  obtain ⟨flag, hflag, hfalsy⟩ := hoff
  rw [selectId, hflag]
  exact if_pos hfalsy

theorem get?_project_of_exclusion (hbelow : spec.NothingBelow "_id")
    (hexclusion : spec.isExclusion = true) : (d.project spec).get? "_id" =
      if (spec.get? "_id").isSome then none else d.get? "_id" := by
  rw [project, if_pos hexclusion]
  exact get?_removeEach (by decide) hbelow d

theorem get?_project_of_inclusion (hbelow : spec.NothingBelow "_id")
    (hinclusion : spec.isExclusion = false) :
    (d.project spec).get? "_id" = (selectId d spec).get? "_id" := by
  have hothers : NothingBelow "_id" (spec.filter fun field => field.1 ≠ "_id") :=
    fun field hfield => hbelow field (List.mem_filter.mp hfield).1
  rw [project, if_neg (by simp [hinclusion])]
  apply get?_selectEach_of_ne hothers
  intro field hfield
  simpa using (List.mem_filter.mp hfield).2

theorem get?_project_eq_none (hbelow : spec.NothingBelow "_id")
    (h : spec.SwitchesIdOff ∨ spec.AsksForIdAlone) : (d.project spec).get? "_id" = none := by
  rcases hexclusion : spec.isExclusion with _ | _
  · rw [get?_project_of_inclusion hbelow hexclusion]
    rcases h with hoff | ⟨⟨rule, hrule, -⟩, hothers⟩
    · rw [selectId_of_switchesIdOff hoff]
      rfl
    · have hne : spec ≠ [] := by
        rintro rfl
        cases hrule
      rw [isExclusion_iff.mpr ⟨hne, hothers⟩] at hexclusion
      cases hexclusion
  · have hrule : ∃ rule, spec.get? "_id" = some rule := by
      rcases h with ⟨flag, hflag, -⟩ | ⟨⟨rule, hrule, -⟩, -⟩
      · exact ⟨flag, hflag⟩
      · exact ⟨rule, hrule⟩
    obtain ⟨rule, hrule⟩ := hrule
    rw [get?_project_of_exclusion hbelow hexclusion, hrule]
    rfl

theorem get?_project_eq_self (hbelow : spec.NothingBelow "_id") (hoff : ¬spec.SwitchesIdOff)
    (halone : ¬spec.AsksForIdAlone) : (d.project spec).get? "_id" = d.get? "_id" := by
  rcases hexclusion : spec.isExclusion with _ | _
  · rw [get?_project_of_inclusion hbelow hexclusion, get?_selectId hoff]
  · have hrule : spec.get? "_id" = none := by
      rcases hrule : spec.get? "_id" with _ | rule
      · rfl
      · rcases hflag : rule.isFalsyFlag with _ | _
        · exact absurd ⟨⟨rule, hrule, hflag⟩, (isExclusion_iff.mp hexclusion).2⟩ halone
        · exact absurd ⟨rule, hrule, hflag⟩ hoff
    rw [get?_project_of_exclusion hbelow hexclusion, hrule]
    rfl

/-- A projection with no path below `_id` shows the identifier unchanged exactly if it neither switches
the identifier off nor asks for it alone. So the identifier stays exactly if it is not switched off,
under every projection but one that asks for it alone. -/
theorem project_id_iff {id : Value} (hid : d.get? "_id" = some id)
    (hbelow : spec.NothingBelow "_id") :
    ((d.project spec).get? "_id" = some id ↔ ¬spec.SwitchesIdOff ∧ ¬spec.AsksForIdAlone) ∧
      (((d.project spec).get? "_id" = some id ↔ ¬spec.SwitchesIdOff) ↔ ¬spec.AsksForIdAlone) := by
  have hkept : (d.project spec).get? "_id" = some id ↔
      ¬spec.SwitchesIdOff ∧ ¬spec.AsksForIdAlone := by
    constructor
    · intro hshown
      rw [← not_or]
      intro h
      rw [get?_project_eq_none hbelow h] at hshown
      cases hshown
    · rintro ⟨hoff, halone⟩
      rw [get?_project_eq_self hbelow hoff halone, hid]
  refine ⟨hkept, ?_⟩
  rw [hkept, and_iff_left_iff_imp]
  constructor
  · exact fun h halone => h (not_switchesIdOff halone) halone
  · exact fun halone _ => halone

theorem project_id_iff_selected_id :
    let d : Document := [("_id", .int32 1), ("name", .string "Ada")]
    let spec := (Plan.empty.select ["_id"]).findProjection
    d.get? "_id" = some (.int32 1) ∧ spec.NothingBelow "_id" ∧ ¬spec.SwitchesIdOff ∧
      (d.project spec).get? "_id" ≠ some (.int32 1) ∧ d.project spec = [("name", .string "Ada")] := by
  intro d spec
  have hspec : spec = [("_id", .boolean true)] := rfl
  have hbelow : spec.NothingBelow "_id" := by
    rw [hspec]
    intro field hfield _
    rw [List.mem_singleton.mp hfield]
  have halone : spec.AsksForIdAlone := by
    refine ⟨⟨.boolean true, rfl, rfl⟩, fun field hfield hne => ?_⟩
    rw [hspec] at hfield
    exact absurd (congrArg Prod.fst (List.mem_singleton.mp hfield)) hne
  have hid : d.get? "_id" = some (.int32 1) := rfl
  have hkept := (project_id_iff hid hbelow).1
  exact ⟨hid, hbelow, not_switchesIdOff halone, fun hshown => (hkept.mp hshown).2 halone, rfl⟩

end RelDoc.Document
