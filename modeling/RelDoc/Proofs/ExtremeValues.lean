import RelDoc.Proofs.SortableValues
import RelDoc.Proofs.UnwoundArrays

namespace RelDoc

namespace Value

variable {a b c : Value} {better : Ordering}

theorem order_self (ha : a.isSortable = true) : a.order a = .eq :=
  (order_eq_iff ha ha).mpr (looseEq_of_isNanFree (isNanFree_of_isSortable ha))

theorem order_eq_swap_iff (ha : a.isSortable = true) (hb : b.isSortable = true) :
    a.order b = better.swap ↔ b.order a = better := by
  rw [order_swap ha hb, Ordering.swap_eq_iff_eq_swap]

theorem order_trans_strict (ha : a.isSortable = true) (hb : b.isSortable = true)
    (hc : c.isSortable = true) (hstrict : better ≠ .eq) (hab : a.order b = better)
    (hbc : b.order c = better) : a.order c = better := by
  have hchain := order_chained ha hb hc
  have hback := order_chained hc hb ha
  rw [order_swap hb hc, order_swap ha hb, order_swap ha hc] at hback
  rw [hab, hbc] at hchain hback
  cases better with
  | eq => exact absurd rfl hstrict
  | lt => exact hchain (by decide) (by decide)
  | gt =>
    have hlt := hback (by decide) (by decide)
    exact Ordering.swap_eq_iff_eq_swap.mp hlt

end Value

namespace Grouping.Accumulator

open Value

variable {better : Ordering} {values : List Value} {best : Option Value} {v : Value}

def candidates (values : List Value) : List Value := values.filter fun v => !isNull v

theorem candidates_singleton (v : Value) : candidates [v] = if isNull v then [] else [v] := by
  rw [candidates, List.filter_singleton]
  cases isNull v <;> rfl

theorem improve_some (h : isNull v = false) (current : Value) :
    improve better (some current) v =
      if v.order current = better then some v else some current := by
  simp [improve, h]

def IsBest (better : Ordering) (values : List Value) : Option Value → Prop
  | none => values = []
  | some v => v ∈ values ∧ ∀ w ∈ values, w.order v ≠ better

theorem IsBest.concat (h : IsBest better values best) (hstrict : better ≠ .eq)
    (hvalues : ∀ w ∈ values, w.isSortable = true) (hv : v.isSortable = true) :
    IsBest better (values ++ candidates [v]) (improve better best v) := by
  rw [candidates_singleton]
  cases hnull : isNull v with
  | true =>
    have hkept : improve better best v = best := if_pos hnull
    rwa [hkept, if_pos rfl, List.append_nil]
  | false =>
    have hself : v.order v ≠ better := by
      rw [order_self hv]
      exact hstrict.symm
    rw [if_neg (by decide)]
    cases best with
    | none =>
      have hfirst : improve better none v = some v := if_neg (Bool.eq_false_iff.mp hnull)
      obtain rfl : values = [] := h
      rw [hfirst]
      exact ⟨List.mem_singleton_self v, List.forall_mem_singleton.mpr hself⟩
    | some u =>
      obtain ⟨hu, hbound⟩ := h
      rw [improve_some hnull]
      split
      case isTrue hbetter =>
        refine ⟨List.mem_append_right _ (List.mem_singleton_self v), ?_⟩
        rw [List.forall_mem_append, List.forall_mem_singleton]
        refine ⟨fun w hw hwv => hbound w hw ?_, hself⟩
        exact order_trans_strict (hvalues w hw) hv (hvalues u hu) hstrict hwv hbetter
      case isFalse hbetter =>
        refine ⟨List.mem_append_left _ hu, ?_⟩
        rw [List.forall_mem_append, List.forall_mem_singleton]
        exact ⟨hbound, hbetter⟩

theorem isBest_foldl (hstrict : better ≠ .eq) (hvalues : ∀ v ∈ values, v.isSortable = true) :
    IsBest better (candidates values) (values.foldl (improve better) none) := by
  induction values using List.reverseRecOn with
  | nil => rfl
  | append_singleton values v ih =>
    rw [List.forall_mem_append, List.forall_mem_singleton] at hvalues
    rw [List.foldl_append, candidates, List.filter_append]
    apply (ih hvalues.1).concat hstrict
    · exact fun w hw => hvalues.1 w (List.mem_of_mem_filter hw)
    · exact hvalues.2

end Grouping.Accumulator

namespace Query

open Grouping

variable {q : Query} {m : Metered} {filter : Document} {column : String}

theorem run_aggregateValue {function : AggregateFunction} (hfunction : function ≠ .count)
    (hgroups : q.plan.groups = []) (hplain : q.plan.Plain) (hunmarked : Plan.Unmarked column)
    (hfilter : Scope.filter q.settings q.plan.clauses = .ok filter)
    (hevaluates : ∀ d ∈ m.collection.documents, Filter.Evaluates d filter)
    (honline : m.collection.online = true) {start : Accumulator}
    (hstart : Accumulator.initial function.accumulator = .ok start) :
    let values := (m.collection.documents.filter (Filter.passes · filter)).map (·.firstValue column)
    ((q.aggregateValue function [column]).run m).1 =
      .ok (if values = [] then none else some (values.foldl Accumulator.feed start).finish) := by
  intro values
  let aggregated := q.scope fun p => (p.select [column]).aggregating function [column]
  have hshown : aggregated.plan.Plain :=
    ⟨hplain.orders, hplain.skip, hplain.limit, hplain.projection⟩
  have hget : (aggregated.get.run m).1 =
      .ok (.documents (Plan.aggregateRows start values)) :=
    run_get_aggregate (q := aggregated) hfunction hgroups hshown rfl
      (Plan.columnTarget_of_unmarked hunmarked) hfilter hevaluates honline hstart
  rw [aggregateValue, rows, Request.run_map, Request.run_map, hget, Plan.aggregateRows]
  split <;> rfl

/-- What is told of some values, which may be null: nothing if there are none, null if all are null,
and otherwise one of the others, such that none of those is on its far side. -/
structure Extreme (far : Ordering) (values : List Value) (answer : Option Value) : Prop where
  nothing : values = [] → answer = none
  null : values ≠ [] → Accumulator.candidates values = [] → answer = some .null
  bound : Accumulator.candidates values ≠ [] → ∃ v ∈ Accumulator.candidates values,
    answer = some v ∧ ∀ w ∈ Accumulator.candidates values, v.order w ≠ far

theorem extreme_of_isBest {better : Ordering} {values : List Value} {best : Option Value}
    (hbest : Accumulator.IsBest better (Accumulator.candidates values) best)
    (hvalues : ∀ v ∈ values, v.isSortable = true) :
    Extreme better.swap values (if values = [] then none else some (best.getD .null)) where
  nothing h := if_pos h
  null hne hnull := by
    cases best with
    | none => exact if_neg hne
    | some v =>
      obtain ⟨hv, -⟩ := hbest
      rw [hnull] at hv
      cases hv
  bound hne := by
    cases best with
    | none => exact absurd hbest hne
    | some v =>
      obtain ⟨hv, hbound⟩ := hbest
      have hsortable : ∀ w ∈ Accumulator.candidates values, w.isSortable = true :=
        fun w hw => hvalues w (List.mem_of_mem_filter hw)
      refine ⟨v, hv, if_neg (List.ne_nil_of_mem (List.mem_of_mem_filter hv)), fun w hw h => ?_⟩
      exact hbound w hw ((Value.order_eq_swap_iff (hsortable v hv) (hsortable w hw)).mp h)

theorem extremes_of_column (hgroups : q.plan.groups = []) (hplain : q.plan.Plain)
    (hunmarked : Plan.Unmarked column)
    (hfilter : Scope.filter q.settings q.plan.clauses = .ok filter)
    (hevaluates : ∀ d ∈ m.collection.documents, Filter.Evaluates d filter)
    (honline : m.collection.online = true)
    (hsortable : ∀ d ∈ m.collection.documents, Filter.passes d filter = true →
      (d.firstValue column).isSortable = true) :
    let values := (m.collection.documents.filter (Filter.passes · filter)).map (·.firstValue column)
    ∃ least greatest, ((q.minimum column).run m).1 = .ok least ∧
      ((q.maximum column).run m).1 = .ok greatest ∧
      Extreme .gt values least ∧ Extreme .lt values greatest := by
  intro values
  have hvalues : ∀ v ∈ values, v.isSortable = true := by
    intro v hv
    obtain ⟨d, hd, rfl⟩ := List.mem_map.mp hv
    obtain ⟨hd, hpasses⟩ := List.mem_filter.mp hd
    exact hsortable d hd hpasses
  have hmin : AggregateFunction.min ≠ .count := by decide
  have hmax : AggregateFunction.max ≠ .count := by decide
  have hleast := run_aggregateValue hmin hgroups hplain hunmarked hfilter hevaluates honline rfl
  have hgreatest := run_aggregateValue hmax hgroups hplain hunmarked hfilter hevaluates honline rfl
  refine ⟨_, _, hleast, hgreatest, ?_, ?_⟩
  · have hfold : values.foldl Accumulator.feed (.min none) =
        .min (values.foldl (Accumulator.improve .lt) none) :=
      List.foldl_hom Accumulator.min fun _ _ => rfl
    rw [hfold]
    have hstrict : Ordering.lt ≠ .eq := by decide
    exact extreme_of_isBest (Accumulator.isBest_foldl hstrict hvalues) hvalues
  · have hfold : values.foldl Accumulator.feed (.max none) =
        .max (values.foldl (Accumulator.improve .gt) none) :=
      List.foldl_hom Accumulator.max fun _ _ => rfl
    rw [hfold]
    have hstrict : Ordering.gt ≠ .eq := by decide
    exact extreme_of_isBest (Accumulator.isBest_foldl hstrict hvalues) hvalues

theorem extremes_of_mixed_column :
    let row (id : String) (n : Value) : Document := [("_id", .string id), ("n", n)]
    let c : Collection := { Collection.empty "rows" true with
      documents := [row "a" (.int32 5), row "b" .null, row "c" (.double 2.5), row "d" (.string "x"),
        [("_id", .string "e")]] }
    let q : Query := ⟨Plan.empty, .standard, []⟩
    ((q.minimum "n").run (.ofCollection c)).1 = .ok (some (.double 2.5)) ∧
      ((q.maximum "n").run (.ofCollection c)).1 = .ok (some (.string "x")) := by
  intro row c q
  have hunmarked : Plan.Unmarked "n" := by
    rw [Plan.Unmarked]
    decide
  have hevaluates : ∀ d ∈ c.documents, Filter.Evaluates d [] :=
    fun d _ => ⟨true, Filter.holds_nil d⟩
  have hsortable : ∀ d ∈ c.documents, (d.firstValue "n").isSortable = true := by decide +kernel
  obtain ⟨least, greatest, hmin, hmax, hleast, hgreatest⟩ :=
    extremes_of_column (q := q) (m := .ofCollection c) rfl ⟨rfl, rfl, rfl, rfl⟩ hunmarked rfl
      hevaluates rfl fun d hd _ => hsortable d hd
  let values : List Value := [.int32 5, .null, .double 2.5, .string "x", .null]
  have hcandidates : Accumulator.candidates values = [.int32 5, .double 2.5, .string "x"] := rfl
  have hne : Accumulator.candidates values ≠ [] := List.cons_ne_nil _ _
  change Extreme .gt values least at hleast
  change Extreme .lt values greatest at hgreatest
  obtain ⟨v, hv, rfl, hbelow⟩ := hleast.bound hne
  obtain ⟨w, hw, rfl, habove⟩ := hgreatest.bound hne
  rw [hcandidates] at hv hw hbelow habove
  simp only [List.mem_cons, List.not_mem_nil, or_false] at hv hw hbelow habove
  rw [hmin, hmax]
  constructor
  · rcases hv with rfl | rfl | rfl
    · exact absurd (by decide +kernel) (hbelow (.double 2.5) (.inr (.inl rfl)))
    · rfl
    · exact absurd (by decide +kernel) (hbelow (.double 2.5) (.inr (.inl rfl)))
  · rcases hw with rfl | rfl | rfl
    · exact absurd (by decide +kernel) (habove (.string "x") (.inr (.inr rfl)))
    · exact absurd (by decide +kernel) (habove (.string "x") (.inr (.inr rfl)))
    · rfl

end Query

end RelDoc
