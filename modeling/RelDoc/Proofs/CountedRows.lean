import RelDoc.Proofs.FilterAgreement
import RelDoc.Proofs.GroupedRows
import RelDoc.Proofs.IntegerSums
import RelDoc.Proofs.PageRows

/-!
Counting rows in two ways. The store can count what a filter selects, and it can put all of this into one
group and add up ones, as doubles. A group needs a document, so the second way has no row for a count of
zero. Otherwise both have the same row, as long as doubles count exactly.
-/

namespace RelDoc

open Decimal

namespace Grouping

def Accumulator.Sums (n : Int) (acc : Accumulator) : Prop :=
  ∃ total, acc = .sum total true ∧ StandsFor n total.toModel.unpack

namespace Accumulator

theorem sums_initial : Sums 0 (.sum 0.0 true) := ⟨0.0, rfl, rfl⟩

theorem Sums.feed_rounded {a b : Int} {acc : Accumulator} {v : Value} {x : Float} (h : Sums a acc)
    (hv : v.numeric? = some x) (hinteger : isDouble v = false) (hx : StandsFor b x.toModel.unpack)
    (hbound : (a + b).natAbs < 2 ^ 200) : Sums (rounded (a + b)) (acc.feed v) := by
  obtain ⟨total, rfl, htotal⟩ := h
  refine ⟨total + x, ?_, standsFor_add_rounded htotal hx hbound⟩
  rw [Accumulator.feed, hv, hinteger]
  rfl

theorem Sums.feed {a b : Int} {acc : Accumulator} {v : Value} {x : Float} (h : Sums a acc)
    (hv : v.numeric? = some x) (hinteger : isDouble v = false) (hx : StandsFor b x.toModel.unpack)
    (hsmall : (a + b).natAbs ≤ 2 ^ 53) : Sums (a + b) (acc.feed v) := by
  have hfeed := h.feed_rounded hv hinteger hx (by omega)
  rwa [rounded_eq hsmall] at hfeed

theorem Sums.finish_eq {n : Int} {acc : Accumulator} (h : Sums n acc) :
    ∃ x, StandsFor n x.toModel.unpack ∧
      acc.finish = if n.natAbs < 2 ^ 63 then .int64 (.ofInt n) else .double x := by
  obtain ⟨total, rfl, htotal⟩ := h
  refine ⟨total, htotal, ?_⟩
  have hfits : n.natAbs ≤ Int64.maxValue.toInt.toNat ↔ n.natAbs < 2 ^ 63 := by
    have hmax : Int64.maxValue.toInt = 2 ^ 63 - 1 := Int64.toInt_maxValue
    omega
  simp only [Accumulator.finish, truncate_of_standsFor htotal, isFinite_of_standsFor htotal, hfits,
    Bool.true_and, decide_eq_true_eq]

theorem Sums.finish {n : Int} {acc : Accumulator} (h : Sums n acc) (hsmall : n.natAbs < 2 ^ 63) :
    acc.finish = .int64 (.ofInt n) := by
  obtain ⟨x, -, hfinish⟩ := h.finish_eq
  rw [hfinish, if_pos hsmall]

end Accumulator

theorem sums_ones (docs : List Document) (h : docs.length ≤ 2 ^ 53) :
    Accumulator.Sums docs.length
      (docs.foldl (fun acc d => acc.feed (evaluate d (.int32 1))) (.sum 0.0 true)) := by
  have hone : StandsFor 1 (nearest 1).toModel.unpack := standsFor_nearest (n := 1) (by decide)
  induction docs using List.reverseRecOn with
  | nil => exact Accumulator.sums_initial
  | append_singleton docs d ih =>
    rw [List.length_append, List.length_singleton] at h
    rw [List.foldl_append, List.foldl_cons, List.foldl_nil, List.length_append,
      List.length_singleton, Nat.cast_add]
    apply (ih (by omega)).feed
    · rfl
    · rfl
    · exact hone
    · omega

theorem partition_const {k : Value} (hk : k.looseEq k = true) (docs : List Document) :
    partition (fun _ => k) docs = if docs = [] then [] else [(k, docs)] := by
  induction docs using List.reverseRecOn with
  | nil => rfl
  | append_singleton docs d ih =>
    have hne : docs ++ [d] ≠ [] := List.concat_ne_nil d docs
    rw [partition_concat, ih, if_neg hne]
    by_cases hdocs : docs = []
    · rw [if_pos hdocs, hdocs]
      rfl
    · rw [if_neg hdocs, place, if_pos hk]

end Grouping

def countRow (n : Nat) : Document := [("_id", .null), (Plan.aggregateField, .int64 (.ofInt n))]

theorem countValue_eq {n : Nat} (h : n < 2 ^ 63) : countValue n = .int64 (.ofInt n) := by
  have htoInt : (Int64.ofIntClamp n).toInt = (Int64.ofInt n).toInt := by
    rw [toInt_ofIntClamp, Int64.toInt_ofInt_of_le (by omega) (by omega)]
    omega
  rw [countValue, Int64.toInt_inj.mp htoInt]

namespace Plan

variable {p : Plan}

def countSpec : Document := [("_id", .null), (aggregateField, .document [("$sum", .int32 1)])]

theorem groupSpecOn_count (hgroups : p.groups = []) (column : String) :
    groupSpecOn (p.aggregating .count [column]) [column] = countSpec := by
  have hfields : groupFields (p.aggregating .count [column]) = [("_id", .null)] :=
    if_pos (List.isEmpty_iff.mpr hgroups)
  rw [groupSpecOn, hfields]
  rfl

theorem group_count {docs : List Document} (h : docs.length ≤ 2 ^ 53) :
    Grouping.group countSpec docs = .ok (if docs = [] then [] else [countRow docs.length]) := by
  have hgroups := Grouping.partition_const (k := .null) rfl docs
  have hsum := (Grouping.sums_ones docs h).finish (by omega)
  change Except.ok ((Grouping.partition (fun _ => .null) docs).map _) = _
  rw [hgroups]
  by_cases hdocs : docs = []
  · rw [if_pos hdocs, if_pos hdocs]
    rfl
  · rw [if_neg hdocs, if_neg hdocs, List.map_singleton]
    change Except.ok [[("_id", .null), (aggregateField, Grouping.Accumulator.finish _)]] = _
    rw [hsum]
    rfl

theorem run_count {docs : List Document} (h : docs.length ≤ 2 ^ 53) :
    Pipeline.run ([Stage.group countSpec].map Stage.toDocument) docs =
      .ok (if docs = [] then [] else [countRow docs.length]) := by
  rw [Pipeline.run_cons]
  change (Grouping.group countSpec docs).bind (Pipeline.run []) = _
  rw [group_count h]
  rfl

theorem orderedStages_count (hgroups : p.groups = []) (hplain : p.Plain) (s : Settings)
    (filter : Document) (column : String) :
    (p.aggregating .count [column]).orderedStages s filter [(none, column)] =
      ((nonempty? filter).map Stage.matching).toList ++ [.group countSpec] := by
  have hsort : nonempty? ((p.aggregating .count [column]).sortFields s) = none := by
    simp [aggregating, sortFields, hplain.orders, nonempty?, Document.ofFields, Document.merge]
  rw [orderedStages, hsort]
  change _ ++ [] ++ [Stage.group (groupSpecOn _ [column])] ++ [] = _
  rw [groupSpecOn_count hgroups, List.append_nil, List.append_nil]

theorem shown_of_plain (hplain : p.Plain) (rows : List Document) :
    (cut p.skip p.limit rows).map p.shownRow = rows := by
  have hrow : p.shownRow = id := by
    funext row
    rw [shownRow, hplain.projection]
    rfl
  rw [hplain.skip, hplain.limit, hrow, List.map_id]
  rfl

end Plan

namespace Query

variable {q : Query} {m : Metered} {filter : Document} {column : String}

theorem run_get_count_all (hgroups : q.plan.groups = [])
    (hfilter : Scope.filter q.settings q.plan.clauses = .ok filter)
    (honline : m.collection.online = true) {matching : List Document}
    (hselect : Filter.select filter m.collection.documents = .ok matching) :
    ((q.scope (·.aggregating .count ["*"])).get.run m).1 =
      .ok (ResultSet.ofCount matching.length) := by
  have hgrouped : (q.plan.aggregating .count ["*"]).isGrouped = true := Bool.or_true _
  have hcounts : (q.plan.aggregating .count ["*"]).countsAll = true := List.isEmpty_iff.mpr hgroups
  have hstrategy : (q.scope (·.aggregating .count ["*"])).strategy = .ok (.count filter) := by
    rw [strategy, Plan.strategy]
    change (Scope.filter q.settings q.plan.clauses).bind _ = _
    rw [hfilter]
    exact Plan.strategyFor_of_count hgrouped hcounts filter
  rw [get, hstrategy, Request.after, Strategy.request, Request.run_issue, Collection.run,
    if_pos honline, Collection.perform_count, hselect]
  rfl

theorem run_get_count_column (hgroups : q.plan.groups = []) (hplain : q.plan.Plain)
    (hcolumn : column ≠ "*") (hunmarked : Plan.Unmarked column)
    (hfilter : Scope.filter q.settings q.plan.clauses = .ok filter)
    (honline : m.collection.online = true) {matching : List Document}
    (hselect : Filter.select filter m.collection.documents = .ok matching)
    (hfew : matching.length ≤ 2 ^ 53) :
    ((q.scope (·.aggregating .count [column])).get.run m).1 =
      .ok (.documents (if matching = [] then [] else [countRow matching.length])) := by
  let counting : Plan := q.plan.aggregating .count [column]
  have hgrouped : counting.isGrouped = true := Bool.or_true _
  have hcounts : counting.countsAll = false := by
    simp [counting, Plan.aggregating, Plan.countsAll, hcolumn.symm]
  have htargets : counting.aggregateColumns.mapM Plan.columnTarget = .ok [(none, column)] :=
    Plan.mapM_columnTarget (List.forall_mem_singleton.mpr hunmarked)
  have hget := run_get_of_pipeline (q := q.scope (·.aggregating .count [column])) (m := m) hfilter
    hgrouped hcounts htargets
  change _ = ((m.collection.reached (Pipeline.run ((counting.orderedStages q.settings filter
    [(none, column)]).map Stage.toDocument) m.collection.documents)).map _).mapError _ at hget
  have hshown : counting.Plain := ⟨hplain.orders, hplain.skip, hplain.limit, hplain.projection⟩
  rw [hget, Collection.reached, if_pos honline, Plan.orderedStages_count hgroups hplain,
    Pipeline.run_matching, hselect, Except.bind, Plan.run_count hfew]
  exact congrArg (Except.ok ∘ ResultSet.documents) (Plan.shown_of_plain hshown _)

theorem counts_agree (hgroups : q.plan.groups = []) (hplain : q.plan.Plain)
    (hcolumn : column ≠ "*") (hunmarked : Plan.Unmarked column)
    (hfilter : Scope.filter q.settings q.plan.clauses = .ok filter)
    (hevaluates : ∀ d ∈ m.collection.documents, Filter.Evaluates d filter)
    (honline : m.collection.online = true) (hfew : m.collection.documents.length < 2 ^ 53) :
    let n := (m.collection.documents.filter (Filter.passes · filter)).length
    ((q.scope (·.aggregating .count ["*"])).get.run m).1 = .ok (.documents [countRow n]) ∧
      ((q.scope (·.aggregating .count [column])).get.run m).1 =
        .ok (.documents (if n = 0 then [] else [countRow n])) ∧
      (q.count.run m).1 = .ok n := by
  intro n
  have hselect := Filter.select_eq_ok.mpr ⟨hevaluates, rfl⟩
  have hn : n < 2 ^ 53 := by
    have hle := List.length_filter_le (Filter.passes · filter) m.collection.documents
    omega
  refine ⟨?_, ?_, ?_⟩
  · rw [run_get_count_all hgroups hfilter honline hselect, ResultSet.ofCount, countValue_eq (by omega)]
    rfl
  · rw [run_get_count_column hgroups hplain hcolumn hunmarked hfilter honline hselect hn.le]
    congr 3
    exact propext List.length_eq_zero_iff.symm
  · rw [run_count_of_filter hgroups hfilter, Collection.run_count filter m.collection honline, hselect]
    change Except.ok (min n (2 ^ 63 - 1)) = _
    rw [Nat.min_eq_left (by omega)]

theorem counts_agree_oslo :
    let person (id city : String) : Document := [("_id", .string id), ("city", .string city)]
    let c : Collection := { Collection.empty "people" true with
      documents := [person "a" "Oslo", person "b" "Rome", person "c" "Oslo"] }
    let plan := Plan.empty.filter (.compare "city" "=" (.string "Oslo") false)
    let q : Query := ⟨plan, .standard, []⟩
    let filter : Document := [("city", .string "Oslo")]
    q.plan.groups = [] ∧ q.plan.Plain ∧ "name" ≠ "*" ∧ Plan.Unmarked "name" ∧
      Scope.filter q.settings q.plan.clauses = .ok filter ∧
      (∀ d ∈ c.documents, Filter.Evaluates d filter) ∧ c.online = true ∧
      c.documents.length < 2 ^ 53 ∧
      ((q.scope (·.aggregating .count ["name"])).get.run (.ofCollection c)).1 =
        .ok (.documents [[("_id", .null), ("aggregate", .int64 2)]]) := by
  intro person c plan q filter
  have hplain : q.plan.Plain := ⟨rfl, rfl, rfl, rfl⟩
  have hunmarked : Plan.Unmarked "name" := by
    rw [Plan.Unmarked]
    decide
  have hfilter : Scope.filter q.settings q.plan.clauses = .ok filter := rfl
  have hevaluates : ∀ d ∈ c.documents, Filter.Evaluates d filter := by
    intro d hd
    simp only [c, List.mem_cons, List.not_mem_nil, or_false] at hd
    rcases hd with rfl | rfl | rfl
    · exact ⟨true, rfl⟩
    · exact ⟨false, rfl⟩
    · exact ⟨true, rfl⟩
  have hfew : c.documents.length < 2 ^ 53 := by decide
  obtain ⟨-, hcolumn, -⟩ := counts_agree (q := q) (m := .ofCollection c) rfl hplain
    (by decide) hunmarked hfilter hevaluates rfl hfew
  exact ⟨rfl, hplain, by decide, hunmarked, hfilter, hevaluates, rfl, hfew, hcolumn⟩

end Query

end RelDoc
