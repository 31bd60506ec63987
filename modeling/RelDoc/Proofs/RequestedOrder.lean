import RelDoc.Plan.Builder
import RelDoc.Proofs.DocumentFields
import RelDoc.Proofs.FilteredDocuments
import RelDoc.Proofs.PageRows
import RelDoc.Proofs.StableSorting

namespace RelDoc

structure OrderRequest where
  column : String
  direction : Direction
  last : Bool

namespace OrderRequest

/-- The columns in the order in which they are first requested, from where each became the last one. -/
def columns : List OrderRequest → List String
  | [] => []
  | r :: later =>
    if later.any fun l => l.last && l.column == r.column then columns later
    else r.column :: (columns later).filter (· ≠ r.column)

def directionOf (requests : List OrderRequest) (column : String) : Direction :=
  ((requests.filter (·.column = column)).getLast?.map direction).getD .ascending

def keys (requests : List OrderRequest) : List (String × Direction) :=
  (columns requests).map fun c => (c, directionOf requests c)

def place (r : OrderRequest) (orders : List (String × Direction)) : List (String × Direction) :=
  Plan.placeOrder r.column r.direction
    (if r.last then orders.filter fun order => order.1 ≠ r.column else orders)

variable (requests : List OrderRequest) (r : OrderRequest)

theorem mem_columns {c : String} (h : c ∈ columns requests) : ∃ r ∈ requests, r.column = c := by
  induction requests with
  | nil => cases h
  | cons q later ih =>
    rw [columns] at h
    split at h
    · obtain ⟨r, hr, hcolumn⟩ := ih h
      exact ⟨r, List.mem_cons_of_mem q hr, hcolumn⟩
    · rcases List.mem_cons.mp h with rfl | h
      · exact ⟨q, List.mem_cons_self, rfl⟩
      · obtain ⟨r, hr, hcolumn⟩ := ih (List.mem_filter.mp h).1
        exact ⟨r, List.mem_cons_of_mem q hr, hcolumn⟩

theorem nodup_columns : (columns requests).Nodup := by
  induction requests with
  | nil => exact List.nodup_nil
  | cons q later ih =>
    rw [columns]
    split
    · exact ih
    · exact List.nodup_cons.mpr ⟨by simp, ih.filter _⟩

def extend (r : OrderRequest) (columns : List String) : List String :=
  if r.last then columns.filter (· ≠ r.column) ++ [r.column]
  else if r.column ∈ columns then columns else columns ++ [r.column]

theorem filter_extend_self (hlast : r.last = false) (columns : List String) :
    (r.extend columns).filter (· ≠ r.column) = columns.filter (· ≠ r.column) := by
  rw [extend, hlast]
  by_cases hmem : r.column ∈ columns <;> simp [hmem]

theorem filter_extend_of_ne {c : String} (h : r.column ≠ c) (columns : List String) :
    (r.extend columns).filter (· ≠ c) = r.extend (columns.filter (· ≠ c)) := by
  rcases hlast : r.last with _ | _
  · by_cases hmem : r.column ∈ columns <;> simp [extend, hlast, hmem, h]
  · simp [extend, hlast, h, Bool.and_comm]

theorem cons_extend {c : String} (h : r.column = c → r.last = false) (columns : List String) :
    c :: (r.extend columns).filter (· ≠ c) = r.extend (c :: columns.filter (· ≠ c)) := by
  by_cases hc : r.column = c
  · obtain rfl := hc
    rw [filter_extend_self r (h rfl), extend, h rfl]
    simp
  · rw [filter_extend_of_ne r hc]
    rcases hlast : r.last with _ | _
    · by_cases hmem : r.column ∈ columns <;> simp [extend, hlast, hmem, hc]
    · simp [extend, hlast, Ne.symm hc]

theorem columns_concat : columns (requests ++ [r]) = r.extend (columns requests) := by
  induction requests with
  | nil => simp [columns, extend]
  | cons q later ih =>
    rw [List.cons_append, columns, columns, List.any_append, ih]
    by_cases hlater : (later.any fun l => l.last && l.column == q.column) = true
    · rw [hlater]
      rfl
    · rw [Bool.not_eq_true] at hlater
      rw [hlater]
      by_cases hmoved : r.last = true ∧ r.column = q.column
      · obtain ⟨hlast, hcolumn⟩ := hmoved
        simp [extend, hlast, hcolumn]
      · have hkept : r.column = q.column → r.last = false := by
          intro hcolumn
          by_contra hlast
          exact hmoved ⟨by simpa using hlast, hcolumn⟩
        have hnone : (r.last && r.column == q.column) = false := by
          simpa using fun hlast hcolumn => hmoved ⟨hlast, hcolumn⟩
        simpa [hnone] using cons_extend r hkept (columns later)

theorem directionOf_concat (c : String) : directionOf (requests ++ [r]) c =
    if r.column = c then r.direction else directionOf requests c := by
  by_cases h : r.column = c <;> simp [directionOf, List.filter_append, h]

theorem placeOrder_map {columns : List String} (hnodup : columns.Nodup) (c : String)
    (direction : Direction) (directions : String → Direction) :
    Plan.placeOrder c direction (columns.map fun n => (n, directions n)) =
      (if c ∈ columns then columns else columns ++ [c]).map fun n =>
        (n, if c = n then direction else directions n) := by
  induction columns with
  | nil => simp [Plan.placeOrder]
  | cons n rest ih =>
    obtain ⟨hnew, hrest⟩ := List.nodup_cons.mp hnodup
    rw [List.map_cons, Plan.placeOrder]
    by_cases hn : n = c
    · obtain rfl := hn
      have hothers : rest.map (fun m => (m, if n = m then direction else directions m)) =
          rest.map fun m => (m, directions m) := by
        apply List.map_congr_left
        intro m hm
        have hne : n ≠ m := fun h => hnew (h ▸ hm)
        rw [if_neg hne]
      simp [hothers]
    · rw [if_neg hn, ih hrest]
      by_cases hmem : c ∈ rest <;> simp [hmem, Ne.symm hn]

theorem keys_concat : keys (requests ++ [r]) = r.place (keys requests) := by
  have hnodup := nodup_columns requests
  rw [keys, columns_concat, place, keys]
  rcases hlast : r.last with _ | _
  · simp only [Bool.false_eq_true, if_false]
    rw [placeOrder_map hnodup, extend, hlast]
    simp [directionOf_concat]
  · simp only [if_true]
    rw [List.filter_map]
    have hplaced := placeOrder_map (hnodup.filter (· ≠ r.column)) r.column r.direction
      (directionOf requests)
    simp only [Function.comp_def]
    rw [hplaced, extend, hlast]
    simp [directionOf_concat]

end OrderRequest

inductive BuilderStep where
  | addClause (clause : Clause)
  | select (columns : List String)
  | project (projection : Document)
  | orderBy (column : String) (direction : Direction)
  | groupBy (columns : List String)
  | aggregating (function : AggregateFunction) (columns : List String)
  | distinctOn (column : Option String)
  | skipping (n : UInt64)
  | limitedTo (n : UInt64)
  | page (number size : UInt64)
  | pageAfter (size : UInt64) (last : Literal) (column : String)
  | withTimeout (ms : UInt64)
  | withHint (hint : Value)
  | withOptions (options : Document)

namespace BuilderStep

def apply : BuilderStep → Plan → Plan
  | .addClause clause => .addClause clause
  | .select columns => .select columns
  | .project projection => .project projection
  | .orderBy column direction => .orderBy column direction
  | .groupBy columns => .groupBy columns
  | .aggregating function columns => .aggregating function columns
  | .distinctOn column => .distinctOn column
  | .skipping n => .skipping n
  | .limitedTo n => .limitedTo n
  | .page number size => .page number size
  | .pageAfter size last column => .pageAfter size last column
  | .withTimeout ms => .withTimeout ms
  | .withHint hint => .withHint hint
  | .withOptions options => .withOptions options

def order? : BuilderStep → Option OrderRequest
  | .orderBy column direction => some ⟨column, direction, false⟩
  | .pageAfter _ _ column => some ⟨column, .ascending, true⟩
  | _ => none

theorem orders_apply (step : BuilderStep) (p : Plan) : (step.apply p).orders =
    match step.order? with
    | some r => r.place p.orders
    | none => p.orders := by
  cases step with
  | pageAfter size last column =>
    change (p.pageAfter size last column).orders = _
    unfold Plan.pageAfter
    split <;> rfl
  | _ => rfl

end BuilderStep

def orderRequests (steps : List BuilderStep) : List OrderRequest := steps.filterMap BuilderStep.order?

namespace Plan

def build (steps : List BuilderStep) : Plan := steps.foldl (fun p step => step.apply p) .empty

theorem orders_build (steps : List BuilderStep) :
    (build steps).orders = OrderRequest.keys (orderRequests steps) := by
  induction steps using List.reverseRecOn with
  | nil => rfl
  | append_singleton steps step ih =>
    have hlast : build (steps ++ [step]) = step.apply (build steps) := List.foldl_append
    have hrequests : orderRequests (steps ++ [step]) =
        orderRequests steps ++ step.order?.toList := by
      rw [orderRequests, List.filterMap_append]
      cases horder : step.order? <;> simp [horder, orderRequests]
    rw [hlast, step.orders_apply, ih, hrequests]
    rcases step.order? with _ | r
    · rw [Option.toList_none, List.append_nil]
    · exact (OrderRequest.keys_concat _ r).symm

variable {s : Settings} {p : Plan}

theorem sortFields_of_nodup {columns : List String} (hnodup : columns.Nodup)
    (hnatural : s.naturalSortColumn ∉ columns) {directions : String → Direction}
    (horders : p.orders = columns.map fun c => (c, directions c)) :
    p.sortFields s = p.orders.map fun order => (order.1, order.2.sign) := by
  have hfields : p.orders.map (fun order =>
      (if order.1 = s.naturalSortColumn then "$natural" else order.1, order.2.sign)) =
        columns.map fun c => (c, (directions c).sign) := by
    rw [horders, List.map_map]
    apply List.map_congr_left
    intro c hc
    have hne : c ≠ s.naturalSortColumn := fun h => hnatural (h ▸ hc)
    simp [hne]
  have hkeys := Document.nodup_keys_map hnodup fun c => (directions c).sign
  rw [sortFields, hfields, Document.ofFields_of_nodup hkeys, horders, List.map_map]
  rfl

theorem inOrder_of_sortFields
    (hfields : p.sortFields s = p.orders.map fun order => (order.1, order.2.sign))
    (hnatural : ∀ order ∈ p.orders, order.1 ≠ "$natural") (docs : List Document) :
    p.inOrder s docs = .ok (docs.mergeSort fun d e =>
      Sorting.compareBy d e (p.orders.map Sorting.keyOf) != .gt) := by
  rw [inOrder, hfields]
  rcases horders : p.orders with _ | ⟨order, more⟩
  · have hall : docs.Pairwise fun _ _ => true = true := List.pairwise_of_forall fun _ _ => rfl
    exact congrArg Except.ok (List.mergeSort_of_pairwise hall).symm
  · rw [horders] at hnatural
    change Sorting.sort ((order :: more).map fun order => (order.1, order.2.sign)) docs = _
    rw [Sorting.sort, Sorting.keys_signs hnatural]
    rfl

theorem shownDocument_of_unselected (hcolumns : p.effectiveColumns = [])
    (hprojection : p.projection.getD [] = []) (d : Document) : p.shownDocument d = d := by
  have hnone : p.findProjection = [] := by
    rw [findProjection, hcolumns, hprojection]
    rfl
  rw [shownDocument, hnone]
  rfl

theorem search_of_find {filter options : Document} (h : p.strategy s = .ok (.find filter options)) :
    Scope.filter s p.clauses = .ok filter ∧ p.isGrouped = false ∧ p.distinct = false := by
  rw [strategy] at h
  rcases hfilter : Scope.filter s p.clauses with e | f
  · rw [hfilter] at h
    cases h
  · rw [hfilter] at h
    change p.strategyFor s f = _ at h
    rcases search_or_pipeline h rfl with ⟨hgrouped, hdistinct⟩ | ⟨hgrouped, hcounts⟩
    · rw [strategyFor_of_search hgrouped hdistinct] at h
      injection h with h
      injection h with h
      exact ⟨congrArg Except.ok h, hgrouped, hdistinct⟩
    · rw [strategyFor_of_pipeline hgrouped hcounts] at h
      rcases htargets : p.aggregateColumns.mapM columnTarget with e | targets <;>
        rw [htargets] at h <;> cases h

end Plan

namespace Query

open Document OrderRequest

variable {q : Query} {m : Metered} {steps : List BuilderStep} {filter options : Document}

theorem get_inRequestedOrder (hplan : q.plan = Plan.build steps)
    (hnatural : ∀ r ∈ orderRequests steps,
      r.column ≠ q.settings.naturalSortColumn ∧ r.column ≠ "$natural")
    (hstrategy : q.strategy = .ok (.find filter options))
    (hcolumns : q.plan.effectiveColumns = []) (hprojection : q.plan.projection.getD [] = [])
    (hoptions : q.plan.options = []) (hskip : ∀ n, q.plan.skip = some n → n.toNat < 2 ^ 53)
    (hlimit : ∀ n, q.plan.limit = some n → n.toNat < 2 ^ 53)
    (hevaluates : ∀ d ∈ m.collection.documents, Filter.Evaluates d filter)
    (hcomparable : ∀ d ∈ m.collection.documents, Filter.passes d filter = true →
      d.IsComparable (keys (orderRequests steps)))
    (honline : m.collection.online = true) :
    let inScope := m.collection.documents.filter (Filter.passes · filter)
    let columns := keys (orderRequests steps)
    ∃ ordered, StablySorted (Precedes columns) (ties columns) inScope ordered ∧
      (∀ other, StablySorted (Precedes columns) (ties columns) inScope other → other = ordered) ∧
      let rest := ordered.drop (q.plan.skip.getD 0).toNat
      let limit := (q.plan.limit.getD 0).toNat
      (q.get.run m).1 = .ok (.documents (if 0 < limit then rest.take limit else rest)) := by
  intro inScope columns
  obtain ⟨hfilter, hgrouped, hdistinct⟩ := Plan.search_of_find hstrategy
  have horders : q.plan.orders = columns := by rw [hplan, Plan.orders_build]
  have hrequested : ∀ c ∈ OrderRequest.columns (orderRequests steps),
      c ≠ q.settings.naturalSortColumn ∧ c ≠ "$natural" := by
    intro c hc
    obtain ⟨r, hr, rfl⟩ := mem_columns _ hc
    exact hnatural r hr
  have hfields := Plan.sortFields_of_nodup (s := q.settings) (nodup_columns (orderRequests steps))
    (fun h => (hrequested _ h).1 rfl) horders
  have hsort := Plan.inOrder_of_sortFields hfields (by
    rw [horders]
    intro key hkey
    obtain ⟨c, hc, rfl⟩ := List.mem_map.mp hkey
    exact (hrequested c hc).2) inScope
  have hselect : Filter.select filter m.collection.documents = .ok inScope :=
    Filter.select_eq_ok.mpr ⟨hevaluates, rfl⟩
  have hscope : ∀ d ∈ inScope, d.IsComparable columns := by
    intro d hd
    obtain ⟨hd, hpasses⟩ := List.mem_filter.mp hd
    exact hcomparable d hd hpasses
  have hsorted := Sorting.stablySorted_mergeSort hscope
  refine ⟨_, hsorted, fun other => Sorting.stablySorted_unique hscope hsorted, ?_⟩
  have hshown : q.plan.shownDocument = id :=
    funext (Plan.shownDocument_of_unselected hcolumns hprojection)
  have hcut := Plan.cut_of_le (inScope.mergeSort fun d e =>
    Sorting.compareBy d e (columns.map Sorting.keyOf) != .gt)
    (fun n hn => (hskip n hn).le) fun n hn => (hlimit n hn).le
  rw [run_get_of_search hfilter hgrouped hdistinct hoptions, hselect, hshown]
  change ((m.collection.reached (q.plan.inOrder q.settings inScope)).map _).mapError _ = _
  rw [hsort, horders, Collection.reached, if_pos honline, ← hcut]
  exact congrArg (fun rows => Except.ok (ResultSet.documents rows)) (List.map_id _)

theorem cities_inRequestedOrder :
    let person (id city : String) (age : List (String × Value)) : Document :=
      [("_id", .string id), ("city", .string city)] ++ age
    let ada := person "a" "Oslo" [("age", .int32 30)]
    let bob := person "b" "Rome" [("age", .int32 7)]
    let cleo := person "c" "Oslo" [("age", .int32 30)]
    let dan := person "d" "Rome" []
    let c : Collection := { Collection.empty "people" true with documents := [ada, bob, cleo, dan] }
    let q : Query := ⟨Plan.build [.orderBy "age" .descending, .orderBy "city" .ascending,
      .pageAfter 2 .null "age", .orderBy "city" .descending, .skipping 1], .standard, []⟩
    (q.get.run (.ofCollection c)).1 = .ok (.documents [bob, ada]) := by
  intro person ada bob cleo dan c q
  have hmatching : c.documents.filter (Filter.passes · []) = c.documents :=
    List.filter_eq_self.mpr fun d _ => Filter.passes_of_holds d (Filter.holds_nil d)
  have hcomparable : ∀ d ∈ c.documents, ∀ key ∈ [("city", Direction.descending), ("age", .ascending)],
      (d.firstValue key.1).isSortable = true := by decide
  obtain ⟨ordered, -, hunique, hget⟩ := get_inRequestedOrder (q := q) (m := .ofCollection c)
    rfl (by decide) rfl rfl rfl rfl (by rintro n ⟨⟩; decide) (by rintro n ⟨⟩; decide)
    (fun d _ => ⟨true, Filter.holds_nil d⟩) (fun d hd _ => hcomparable d hd) rfl
  have hordered : [dan, bob, ada, cleo] = ordered := by
    apply hunique
    change StablySorted _ _ (c.documents.filter (Filter.passes · [])) _
    rw [hmatching]
    refine ⟨?_, ?_, ?_⟩
    · exact (List.perm_append_singleton dan [bob, ada, cleo]).symm.trans (.swap ada bob _)
    · decide +kernel
    · intro x hx
      simp only [c, List.mem_cons, List.not_mem_nil, or_false] at hx
      rcases hx with rfl | rfl | rfl | rfl <;> rfl
  rw [hget, ← hordered]
  rfl

end Query

end RelDoc
