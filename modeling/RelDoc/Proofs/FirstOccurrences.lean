import Mathlib.Data.List.Induction
import RelDoc.Proofs.EqualityLaws
import RelDoc.Update

namespace RelDoc

namespace Value

variable {u v : Value} {firsts values : List Value}

theorem looseEq_comm (u v : Value) : u.looseEq v = v.looseEq u :=
  Bool.eq_iff_iff.mpr ⟨looseEq_symm, looseEq_symm⟩

theorem looseEq_congr_right (h : u.looseEq v = true) (w : Value) : w.looseEq u = w.looseEq v := by
  rw [Bool.eq_iff_iff]
  exact ⟨fun hw => looseEq_trans hw h, fun hw => looseEq_trans hw (looseEq_symm h)⟩

/-- Of every class of equal values the one that comes first, in the order in which they come. -/
structure FirstOfEach (firsts values : List Value) : Prop where
  sublist : firsts.Sublist values
  earliest : ∀ v ∈ firsts, values.find? (·.looseEq v) = some v
  inOrder : firsts.Pairwise fun u v =>
    values.findIdx (·.looseEq u) < values.findIdx (·.looseEq v)
  apart : firsts.Pairwise fun u v => u.looseEq v = false
  complete : ∀ v ∈ values, firsts.countP (·.looseEq v) = 1

theorem firstOfEach_nil : FirstOfEach [] [] where
  sublist := .slnil
  earliest := by simp
  inOrder := .nil
  apart := .nil
  complete := by simp

theorem FirstOfEach.exists_looseEq (h : FirstOfEach firsts values) (hv : v ∈ values) :
    ∃ u ∈ firsts, u.looseEq v = true := by
  rw [← List.countP_pos_iff, h.complete v hv]
  exact Nat.one_pos

theorem FirstOfEach.looseEq_self (h : FirstOfEach firsts values) (hv : v ∈ firsts) :
    v.looseEq v = true :=
  List.find?_some (p := fun u : Value => u.looseEq v) (h.earliest v hv)

theorem FirstOfEach.findIdx_lt (h : FirstOfEach firsts values) (hv : v ∈ firsts) :
    values.findIdx (·.looseEq v) < values.length := by
  apply List.findIdx_lt_length_of_exists
  exact ⟨v, h.sublist.subset hv, h.looseEq_self hv⟩

theorem FirstOfEach.findIdx_append (h : FirstOfEach firsts values) (hv : v ∈ firsts)
    (more : List Value) :
    (values ++ more).findIdx (·.looseEq v) = values.findIdx (·.looseEq v) := by
  rw [List.findIdx_append, if_pos (h.findIdx_lt hv)]

theorem FirstOfEach.earliest_append (h : FirstOfEach firsts values) (more : List Value) :
    ∀ v ∈ firsts, (values ++ more).find? (·.looseEq v) = some v := by
  intro v hv
  rw [List.find?_append, h.earliest v hv]
  rfl

theorem FirstOfEach.inOrder_append (h : FirstOfEach firsts values) (more : List Value) :
    firsts.Pairwise fun u v =>
      (values ++ more).findIdx (·.looseEq u) < (values ++ more).findIdx (·.looseEq v) := by
  apply h.inOrder.imp_of_mem
  intro u v hu hv hlt
  rwa [h.findIdx_append hu, h.findIdx_append hv]

theorem FirstOfEach.concat_known (h : FirstOfEach firsts values) (hu : u ∈ firsts)
    (heq : u.looseEq v = true) : FirstOfEach firsts (values ++ [v]) where
  sublist := h.sublist.trans (List.sublist_append_left _ _)
  earliest := h.earliest_append [v]
  inOrder := h.inOrder_append [v]
  apart := h.apart
  complete := by
    rw [List.forall_mem_append, List.forall_mem_singleton]
    refine ⟨h.complete, ?_⟩
    rw [← h.complete u (h.sublist.subset hu)]
    exact List.countP_congr fun w _ => by rw [looseEq_congr_right heq]

theorem FirstOfEach.concat_new (h : FirstOfEach firsts values) (hself : v.looseEq v = true)
    (hnew : ∀ u ∈ firsts, u.looseEq v = false) : FirstOfEach (firsts ++ [v]) (values ++ [v]) := by
  -- What is equal to `v` would be equal to the first of its class.
  have hvalues : ∀ w ∈ values, w.looseEq v = false := by
    intro w hw
    obtain ⟨u, hu, huw⟩ := h.exists_looseEq hw
    by_contra hwv
    rw [Bool.not_eq_false] at hwv
    exact absurd (looseEq_trans huw hwv) (by rw [hnew u hu]; decide)
  have hnone : values.find? (·.looseEq v) = none := by
    rw [List.find?_eq_none]
    intro w hw
    rw [hvalues w hw]
    decide
  have hlast : values.findIdx (·.looseEq v) = values.length :=
    List.findIdx_eq_length_of_false hvalues
  refine ⟨h.sublist.append (.refl [v]), ?_, ?_, ?_, ?_⟩
  · rw [List.forall_mem_append, List.forall_mem_singleton, List.find?_append, hnone]
    refine ⟨h.earliest_append [v], ?_⟩
    rw [List.find?_singleton, if_pos hself]
    rfl
  · rw [List.pairwise_append]
    refine ⟨h.inOrder_append [v], List.pairwise_singleton _ _, fun u hu w hw => ?_⟩
    obtain rfl := List.mem_singleton.mp hw
    rw [h.findIdx_append hu, List.findIdx_append, hlast, if_neg (Nat.lt_irrefl _)]
    exact Nat.lt_of_lt_of_le (h.findIdx_lt hu) (Nat.le_add_left _ _)
  · rw [List.pairwise_append]
    refine ⟨h.apart, List.pairwise_singleton _ _, fun u hu w hw => ?_⟩
    obtain rfl := List.mem_singleton.mp hw
    exact hnew u hu
  · rw [List.forall_mem_append, List.forall_mem_singleton]
    constructor
    · intro w hw
      rw [List.countP_append, h.complete w hw, List.countP_singleton, looseEq_comm, hvalues w hw]
      rfl
    · have hzero : firsts.countP (·.looseEq v) = 0 := by
        rw [List.countP_eq_zero]
        intro u hu
        rw [hnew u hu]
        decide
      rw [List.countP_append, hzero, List.countP_singleton, hself]
      rfl

theorem FirstOfEach.appendNew (h : FirstOfEach firsts values) (hself : v.looseEq v = true) :
    FirstOfEach (Update.appendNew firsts v) (values ++ [v]) := by
  rw [Update.appendNew]
  split
  · rename_i hany
    obtain ⟨u, hu, heq⟩ := List.any_eq_true.mp hany
    exact h.concat_known hu heq
  · rename_i hany
    exact h.concat_new hself (by simpa using hany)

theorem firstOfEach_foldl (hvalues : ∀ v ∈ values, v.isNanFree = true) :
    FirstOfEach (values.foldl Update.appendNew []) values := by
  induction values using List.reverseRecOn with
  | nil => exact firstOfEach_nil
  | append_singleton values v ih =>
    rw [List.forall_mem_append, List.forall_mem_singleton] at hvalues
    obtain ⟨hbefore, hv⟩ := hvalues
    rw [List.foldl_append]
    exact (ih hbefore).appendNew (looseEq_of_isNanFree hv)

end Value

end RelDoc
