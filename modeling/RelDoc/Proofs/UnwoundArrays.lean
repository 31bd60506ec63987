import RelDoc.Proofs.CountedRows
import RelDoc.Proofs.FieldConditions
import RelDoc.Proofs.PageRows

/-!
Aggregates over arrays. A marker in a column stands for the elements of an array: a pipeline makes one
document of each of them and writes the element in place of the array, where the aggregate then finds
it. The result is that of a loop over the documents and, in each of them, over the elements.
-/

namespace RelDoc

namespace Plan

def marker : List Char := ['.', '*', '.']

theorem star_mem_pieces {front rest : List Char} :
    ['*'] ∈ Path.pieces (front ++ (marker ++ rest)) := by
  change ['*'] ∈ Path.pieces (front ++ '.' :: (['*'] ++ '.' :: rest))
  rw [Path.pieces_append_dot, Path.pieces_append_dot]
  exact List.mem_append_right _ (List.mem_append_left _ (List.mem_singleton.mpr rfl))

theorem not_infix_of_segments {path : String} (h : "*" ∉ Path.segments path) :
    ¬marker <:+: path.toList ++ ['.'] := by
  rintro ⟨front, rest, hsplit⟩
  have hstar : ['*'] ∈ Path.pieces (path.toList ++ ['.']) := by
    rw [← hsplit, List.append_assoc]
    exact star_mem_pieces
  rw [Path.pieces_append_dot] at hstar
  rcases List.mem_append.mp hstar with hstar | hstar
  · exact h (List.mem_map.mpr ⟨_, hstar, rfl⟩)
  · cases List.mem_singleton.mp hstar

theorem markerParts_append {a : List Char} (h : ¬marker <:+: a ++ ['.']) (b : List Char) :
    markerParts (a ++ (marker ++ b)) = a :: markerParts b := by
  induction a with
  | nil => rfl
  | cons c rest ih =>
    have hparts := ih fun hrest => h (hrest.trans (List.suffix_cons c (rest ++ ['.'])).isInfix)
    -- A marker at the front would lie in the path and the dot behind it.
    have hfront : ∀ more, c = '.' → rest ++ (marker ++ b) = '*' :: '.' :: more → False := by
      rintro more rfl hmore
      apply h
      rcases rest with _ | ⟨x, _ | ⟨y, rest⟩⟩
      · cases hmore
      · obtain ⟨rfl, -⟩ := List.cons.inj hmore
        exact List.infix_rfl
      · obtain ⟨rfl, hnext⟩ := List.cons.inj hmore
        obtain ⟨rfl, -⟩ := List.cons.inj hnext
        exact (List.prefix_append marker (rest ++ ['.'])).isInfix
    rw [List.cons_append, markerParts, hparts]
    exact hfront

theorem columnTarget_of_marker {array inner : String} (harray : "*" ∉ Path.segments array)
    (hinner : "*" ∉ Path.segments inner) : columnTarget (array ++ ".*." ++ inner) =
      .ok (some array, array ++ "." ++ inner) := by
  have hlist : (array ++ ".*." ++ inner).toList = array.toList ++ (marker ++ inner.toList) := by
    rw [String.toList_append, String.toList_append, List.append_assoc]
    rfl
  have hinfix : ¬marker <:+: inner.toList := fun h =>
    not_infix_of_segments hinner (h.trans (List.prefix_append _ _).isInfix)
  have hparts : markerParts (array ++ ".*." ++ inner).toList = [array.toList, inner.toList] := by
    rw [hlist, markerParts_append (not_infix_of_segments harray),
      markerParts_of_not_infix hinfix]
  rw [columnTarget, hparts]
  simp

end Plan

namespace Document

def held : List String → Document → Option Value
  | [], _ => none
  | [key], d => d.get? key
  | key :: rest, d =>
    match d.get? key with
    | some (.document inner) => held rest inner
    | _ => none

/-- On the way to what stands at a path there are only documents, as far as there is anything. -/
def ThroughDocuments (p : List String) (d : Document) : Prop :=
  ∀ front rest, p = front ++ rest → front ≠ [] → rest ≠ [] →
    ∀ v, d.held front = some v → ∃ inner, v = .document inner

variable {p : List String} {d : Document}

theorem held_cons (key : String) (hp : p ≠ []) (d : Document) : d.held (key :: p) =
    match d.get? key with
    | some (.document inner) => held p inner
    | _ => none := by
  cases p with
  | nil => exact absurd rfl hp
  | cons next rest => rfl

theorem reach_of_throughDocuments (hp : p ≠ []) (h : d.ThroughDocuments p) :
    (Value.document d).reach p = (d.held p).toList := by
  induction p generalizing d with
  | nil => exact absurd rfl hp
  | cons key rest ih =>
    rw [Value.reach_document]
    by_cases hrest : rest = []
    · subst hrest
      exact List.flatMap_singleton' _
    · rw [held_cons key hrest]
      rcases hkey : d.get? key with _ | v
      · rfl
      · obtain ⟨inner, rfl⟩ := h [key] rest rfl (List.cons_ne_nil _ _) hrest v hkey
        refine (List.flatMap_singleton _ _).trans (ih hrest ?_)
        intro front more hsplit hfront hmore w hw
        refine h (key :: front) more (congrArg _ hsplit) (List.cons_ne_nil _ _) hmore w ?_
        rw [held_cons key hfront, hkey]
        exact hw

def elementsAt (path : String) (d : Document) : List Value :=
  match d.held (Path.segments path) with
  | some (.array items) => items
  | some .null | none => []
  | some v => [v]

theorem unwound_eq {path : String} (h : d.ThroughDocuments (Path.segments path)) :
    Pipeline.unwound path d = (d.elementsAt path).map (d.set path) := by
  have hfirst : d.first? path = d.held (Path.segments path) := by
    rw [first?, lookup, reach_of_throughDocuments (Path.segments_ne_nil path) h]
    cases d.held (Path.segments path) <;> rfl
  rcases hheld : d.held (Path.segments path) with _ | v
  · simp only [Pipeline.unwound, elementsAt, hfirst, hheld]
  · cases v <;> simp only [Pipeline.unwound, elementsAt, hfirst, hheld]

end Document

def Value.firstWithin (path : String) (v : Value) : Value :=
  (v.reach (Path.segments path)).head?.getD .null

theorem Document.firstValue_set (path inner : String) (v : Value) (d : Document) :
    (d.set path v).firstValue (path ++ "." ++ inner) = v.firstWithin inner := by
  have hv : (d.set path v).lookup path = [v] := (Document.leadsTo_set path v d).reach
  rw [firstValue, first?, lookup_append, hv, Value.firstWithin]
  exact congrArg (fun vs => (List.head? vs).getD Value.null) (List.flatMap_singleton _ _)

namespace Plan

variable {p : Plan} {s : Settings}

def unwoundAll (paths : List String) (docs : List Document) : List Document :=
  paths.foldl (fun docs path => docs.flatMap (Pipeline.unwound path)) docs

theorem run_unwinding (paths : List String) (rest : List Stage) (docs : List Document) :
    Pipeline.run ((paths.map Stage.unwind ++ rest).map Stage.toDocument) docs =
      Pipeline.run (rest.map Stage.toDocument) (unwoundAll paths docs) := by
  induction paths generalizing docs with
  | nil => rfl
  | cons path more ih =>
    rw [List.map_cons, List.cons_append, Pipeline.run_cons, Pipeline.stage_unwind]
    exact ih _

theorem run_orderedStages {filter : Document} {docs matching : List Document}
    (hselect : Filter.select filter docs = .ok matching) (targets : List (Option String × String)) :
    Pipeline.run ((p.orderedStages s filter targets).map Stage.toDocument) docs =
      (Grouping.group (p.groupSpecOn (targets.map Prod.snd))
        (unwoundAll (targets.filterMap Prod.fst) matching)).bind (p.inOrder s) := by
  rw [orderedStages, List.append_assoc, List.append_assoc, Pipeline.run_matching, hselect]
  change Pipeline.run _ matching = _
  rw [run_unwinding, List.singleton_append, Pipeline.run_cons]
  change (Grouping.group _ _).bind _ = _
  congr 1
  funext rows
  rw [inOrder]
  rcases nonempty? (p.sortFields s) with _ | spec
  · rfl
  · change (Sorting.sort spec rows).bind (Pipeline.run []) = Sorting.sort spec rows
    cases Sorting.sort spec rows <;> rfl

def aggregateSpec (function : AggregateFunction) (path : String) : Document :=
  [("_id", .null), (aggregateField, .document [(function.accumulator, reference path)])]

theorem groupSpecOn_aggregate {function : AggregateFunction} (hfunction : function ≠ .count)
    (hgroups : p.groups = []) {columns : List String} (haggregate : p.aggregate = some ⟨function, columns⟩)
    (path : String) : p.groupSpecOn [path] = aggregateSpec function path := by
  have hfields : p.groupFields = [("_id", .null)] := if_pos (List.isEmpty_iff.mpr hgroups)
  rw [groupSpecOn, haggregate, hfields]
  cases function with
  | count => exact absurd rfl hfunction
  | _ => rfl

def aggregateRows (start : Grouping.Accumulator) (values : List Value) : List Document :=
  if values = [] then []
  else [[("_id", .null), (aggregateField, (values.foldl Grouping.Accumulator.feed start).finish)]]

theorem group_aggregate {function : AggregateFunction} {start : Grouping.Accumulator}
    (hstart : Grouping.Accumulator.initial function.accumulator = .ok start) (path : String)
    (docs : List Document) : Grouping.group (aggregateSpec function path) docs =
      .ok (aggregateRows start (docs.map (·.firstValue path))) := by
  have hrules : Grouping.rules (aggregateSpec function path) =
      .ok [⟨aggregateField, function.accumulator, reference path⟩] := by
    change ((Grouping.Accumulator.initial function.accumulator).map _).bind _ = _
    rw [hstart]
    rfl
  have hgroup : Grouping.group (aggregateSpec function path) docs =
      (Grouping.rules (aggregateSpec function path)).map fun rs =>
        (Grouping.partition (fun _ => .null) docs).map (Grouping.row rs) := rfl
  rw [hgroup, hrules, Grouping.partition_const rfl, aggregateRows]
  simp only [List.map_eq_nil_iff]
  by_cases hdocs : docs = []
  · rw [if_pos hdocs, if_pos hdocs]
    rfl
  · have hresult : Grouping.Rule.result ⟨aggregateField, function.accumulator, reference path⟩ docs =
        ((docs.map (·.firstValue path)).foldl Grouping.Accumulator.feed start).finish := by
      rw [Grouping.Rule.result, hstart, List.foldl_map]
      simp only [Grouping.evaluate_reference]
    rw [if_neg hdocs, if_neg hdocs, ← hresult]
    rfl

end Plan

namespace Query

variable {q : Query} {m : Metered} {filter : Document} {array inner : String}
  {function : AggregateFunction}

theorem run_get_aggregate (hfunction : function ≠ .count) (hgroups : q.plan.groups = [])
    (hplain : q.plan.Plain) {column path : String} {unwinding : Option String}
    (haggregate : q.plan.aggregate = some ⟨function, [column]⟩)
    (htarget : Plan.columnTarget column = .ok (unwinding, path))
    (hfilter : Scope.filter q.settings q.plan.clauses = .ok filter)
    (hevaluates : ∀ d ∈ m.collection.documents, Filter.Evaluates d filter)
    (honline : m.collection.online = true) {start : Grouping.Accumulator}
    (hstart : Grouping.Accumulator.initial function.accumulator = .ok start) :
    let matching := m.collection.documents.filter (Filter.passes · filter)
    (q.get.run m).1 = .ok (.documents (Plan.aggregateRows start
      ((Plan.unwoundAll unwinding.toList matching).map (·.firstValue path)))) := by
  intro matching
  have hgrouped : q.plan.isGrouped = true := by
    rw [Plan.isGrouped, haggregate]
    exact Bool.or_true _
  have hcounts : q.plan.countsAll = false := by
    rw [Plan.countsAll, haggregate]
    cases function with
    | count => exact absurd rfl hfunction
    | _ => rfl
  have htargets : q.plan.aggregateColumns.mapM Plan.columnTarget = .ok [(unwinding, path)] := by
    rw [Plan.aggregateColumns, haggregate]
    change [column].mapM Plan.columnTarget = _
    rw [List.mapM_cons, htarget]
    rfl
  have hselect : Filter.select filter m.collection.documents = .ok matching :=
    Filter.select_eq_ok.mpr ⟨hevaluates, rfl⟩
  have hunwound : [(unwinding, path)].filterMap Prod.fst = unwinding.toList := by
    cases unwinding <;> rfl
  have hunordered : ∀ rows, q.plan.inOrder q.settings rows = .ok rows := by
    intro rows
    rw [Plan.inOrder, Plan.sortFields, hplain.orders]
    rfl
  have hrows : Pipeline.run ((q.plan.orderedStages q.settings filter
      [(unwinding, path)]).map Stage.toDocument) m.collection.documents =
        .ok (Plan.aggregateRows start
          ((Plan.unwoundAll unwinding.toList matching).map (·.firstValue path))) := by
    rw [Plan.run_orderedStages hselect, hunwound]
    change (Grouping.group (q.plan.groupSpecOn [path]) _).bind _ = _
    rw [Plan.groupSpecOn_aggregate hfunction hgroups haggregate, Plan.group_aggregate hstart]
    exact hunordered _
  rw [run_get_of_pipeline hfilter hgrouped hcounts htargets, hrows, Collection.reached,
    if_pos honline]
  exact congrArg (Except.ok ∘ ResultSet.documents) (Plan.shown_of_plain hplain _)

theorem get_aggregate_unwound (hfunction : function ≠ .count) (harray : "*" ∉ Path.segments array)
    (hinner : "*" ∉ Path.segments inner) (hgroups : q.plan.groups = []) (hplain : q.plan.Plain)
    (haggregate : q.plan.aggregate = some ⟨function, [array ++ ".*." ++ inner]⟩)
    (hfilter : Scope.filter q.settings q.plan.clauses = .ok filter)
    (hevaluates : ∀ d ∈ m.collection.documents, Filter.Evaluates d filter)
    (hthrough : ∀ d ∈ m.collection.documents, Filter.passes d filter = true →
      d.ThroughDocuments (Path.segments array))
    (honline : m.collection.online = true) :
    let matching := m.collection.documents.filter (Filter.passes · filter)
    let values := matching.flatMap fun d => (d.elementsAt array).map (·.firstWithin inner)
    ∃ start, Grouping.Accumulator.initial function.accumulator = .ok start ∧
      (q.get.run m).1 = .ok (.documents (if values = [] then [] else
        [[("_id", .null), ("aggregate", (values.foldl Grouping.Accumulator.feed start).finish)]])) := by
  intro matching values
  obtain ⟨start, hstart⟩ := Grouping.initial_accumulator function
  refine ⟨start, hstart, ?_⟩
  have hvalues : (matching.flatMap (Pipeline.unwound array)).map
      (·.firstValue (array ++ "." ++ inner)) = values := by
    rw [List.map_flatMap]
    apply List.flatMap_congr
    intro d hd
    obtain ⟨hd, hpasses⟩ := List.mem_filter.mp hd
    rw [Document.unwound_eq (hthrough d hd hpasses), List.map_map]
    exact List.map_congr_left fun v _ => Document.firstValue_set array inner v d
  have hget := run_get_aggregate hfunction hgroups hplain haggregate
    (Plan.columnTarget_of_marker harray hinner) hfilter hevaluates honline hstart
  change _ = Except.ok (ResultSet.documents (Plan.aggregateRows start
    ((matching.flatMap (Pipeline.unwound array)).map _))) at hget
  rw [hget, hvalues]
  rfl

theorem sum_of_items :
    let order (id : String) (items : Value) : Document :=
      [("_id", .string id), ("order", .document [("items", items)])]
    let item (n : Int32) : Value := .document [("qty", .int32 n)]
    let c : Collection := { Collection.empty "orders" true with
      documents := [order "a" (.array [item 2, .document [], item 3]), order "b" (item 5),
        order "c" .null, [("_id", .string "d")]] }
    let q : Query := ⟨Plan.empty.aggregating .sum ["order.items.*.qty"], .standard, []⟩
    (q.get.run (.ofCollection c)).1 =
      .ok (.documents [[("_id", .null), ("aggregate", .int64 10)]]) := by
  intro order item c q
  have hthrough : ∀ d ∈ c.documents, d.ThroughDocuments (Path.segments "order.items") := by
    intro d hd front rest hsplit hfront hrest v hv
    change ["order", "items"] = front ++ rest at hsplit
    rcases front with _ | ⟨key, _ | ⟨next, front⟩⟩
    · exact absurd rfl hfront
    · obtain ⟨rfl, -⟩ := List.cons.inj hsplit
      simp only [c, List.mem_cons, List.not_mem_nil, or_false] at hd
      rcases hd with rfl | rfl | rfl | rfl
      · exact ⟨_, (Option.some.inj hv).symm⟩
      · exact ⟨_, (Option.some.inj hv).symm⟩
      · exact ⟨_, (Option.some.inj hv).symm⟩
      · cases hv
    · obtain ⟨-, hsplit⟩ := List.cons.inj hsplit
      obtain ⟨-, hnone⟩ := List.cons.inj hsplit
      exact absurd (List.append_eq_nil_iff.mp hnone.symm).2 hrest
  have hfunction : AggregateFunction.sum ≠ .count := by decide
  have harray : "*" ∉ Path.segments "order.items" := by decide
  have hinner : "*" ∉ Path.segments "qty" := by decide
  have hevaluates : ∀ d ∈ c.documents, Filter.Evaluates d [] :=
    fun d _ => ⟨true, Filter.holds_nil d⟩
  obtain ⟨start, hstart, hget⟩ := get_aggregate_unwound (q := q) (m := .ofCollection c) hfunction
    harray hinner rfl ⟨rfl, rfl, rfl, rfl⟩ rfl rfl hevaluates (fun d hd _ => hthrough d hd) rfl
  obtain rfl := Except.ok.inj hstart
  rw [hget]
  rfl

end Query

end RelDoc
