import RelDoc.Proofs.ConfinedRequests
import RelDoc.Proofs.GroupPartition

namespace RelDoc

open Grouping

theorem reference?_append (path : String) : reference? ("$" ++ path) = some path := by
  simp [reference?]

theorem Pipeline.stage_unwind (path : String) (docs : List Document) :
    Pipeline.stage (Stage.unwind path).name (Stage.unwind path).argument docs =
      .ok (docs.flatMap (Pipeline.unwound path)) := by
  have hpath : Pipeline.unwindPath (.string ("$" ++ path)) = .ok path := by
    simp only [Pipeline.unwindPath, bind, Except.bind, reference?_append]
  change (Pipeline.unwindPath (.string ("$" ++ path))).map _ = _
  rw [hpath]
  rfl

def AgreeOn (columns : List String) (d e : Document) : Prop :=
  ∀ c ∈ columns, (d.firstValue c).looseEq (e.firstValue c) = true

theorem AgreeOn.symm {columns : List String} {d e : Document} (h : AgreeOn columns d e) :
    AgreeOn columns e d :=
  fun c hc => Value.looseEq_symm (h c hc)

namespace Grouping

variable (d e : Document)

theorem evaluate_reference (column : String) :
    evaluate d (Plan.reference column) = d.firstValue column := by
  rw [Plan.reference, evaluate, reference?_append]

theorem evaluateFields_eq_merge (fields : List (String × Value)) (out : Document) :
    evaluateFields d fields out = out.merge (fields.map fun f => (f.1, evaluate d f.2)) := by
  induction fields generalizing out with
  | nil => rfl
  | cons f rest ih =>
    rw [evaluateFields, ih]
    rfl

theorem evaluate_lastOf (column : String) :
    evaluate d (Plan.lastOf column) = .document [("$last", d.firstValue column)] := by
  rw [Plan.lastOf, evaluate, evaluateFields_eq_merge, ← evaluate_reference]
  rfl

theorem evaluate_columns (columns : List String) : ∃ distinct : List String,
    (∀ c, c ∈ distinct ↔ c ∈ columns) ∧ ∀ d : Document,
      evaluate d (.document (Document.ofFields (columns.map fun c => (c, Plan.reference c)))) =
        .document (distinct.map fun c => (c, d.firstValue c)) := by
  obtain ⟨named, hnamed, hfields⟩ := Document.ofFields_map columns
  obtain ⟨distinct, hdistinct, hvalues⟩ := Document.ofFields_map named
  refine ⟨distinct, fun c => (hdistinct c).trans (hnamed c), fun d => ?_⟩
  have hevaluated : (named.map fun c => (c, Plan.reference c)).map
      (fun f => (f.1, evaluate d f.2)) = named.map fun c => (c, d.firstValue c) := by
    simp [evaluate_reference]
  rw [hfields, evaluate, evaluateFields_eq_merge, hevaluated]
  exact congrArg Value.document (hvalues d.firstValue)

theorem looseEq_columns_iff (columns : List String) :
    (Value.document (columns.map fun c => (c, d.firstValue c))).looseEq
      (.document (columns.map fun c => (c, e.firstValue c))) = true ↔ AgreeOn columns d e := by
  rw [Value.looseEq, Value.looseEqFields_iff, List.forall₂_map_left_iff, List.forall₂_map_right_iff,
    List.forall₂_same]
  simp [Value.FieldEq, AgreeOn]

def IsRule (v : Value) : Prop :=
  ∃ op expression start, v = .document [(op, expression)] ∧ Accumulator.initial op = .ok start

theorem rule_eq_ok {name : String} {v : Value} {r : Rule} (h : rule name v = .ok r) :
    ∃ op e more start, v = .document ((op, e) :: more) ∧ Accumulator.initial op = .ok start ∧
      r = ⟨name, op, e⟩ := by
  unfold rule at h
  split at h
  · cases h
  · rename_i op e more
    rcases hstart : Accumulator.initial op with fault | start
    · rw [hstart] at h
      cases h
    · rw [hstart] at h
      exact ⟨op, e, more, start, rfl, hstart, (Except.ok.inj h).symm⟩
  · cases h

theorem rules_forall {spec : Document}
    (h : ∀ field ∈ spec, field.1 ≠ "_id" → ∃ r, rule field.1 field.2 = .ok r) :
    ∃ rs, rules spec = .ok rs ∧ rs.map Rule.name = spec.keys.filter (· ≠ "_id") ∧
      ∀ field ∈ spec, field.1 ≠ "_id" → ∃ r ∈ rs, rule field.1 field.2 = .ok r := by
  induction spec with
  | nil => exact ⟨[], rfl, rfl, by simp⟩
  | cons field rest ih =>
    obtain ⟨name, v⟩ := field
    obtain ⟨hfield, hrest⟩ := List.forall_mem_cons.mp h
    obtain ⟨rs, hrules, hnames, hmem⟩ := ih hrest
    by_cases hname : name = "_id"
    · refine ⟨rs, by rw [rules, if_pos hname, hrules], by simpa [Document.keys, hname] using hnames, ?_⟩
      exact List.forall_mem_cons.mpr ⟨fun hne => absurd hname hne, hmem⟩
    · obtain ⟨r, hr⟩ := hfield hname
      obtain ⟨op, e, more, start, rfl, -, rfl⟩ := rule_eq_ok hr
      refine ⟨⟨name, op, e⟩ :: rs, ?_, ?_, ?_⟩
      · rw [rules, if_neg hname, hr, hrules]
        rfl
      · simpa [Document.keys, hname] using hnames
      · refine List.forall_mem_cons.mpr ⟨fun _ => ⟨_, List.mem_cons_self, hr⟩, fun field hf hne => ?_⟩
        obtain ⟨r, hr, hrule⟩ := hmem field hf hne
        exact ⟨r, List.mem_cons_of_mem _ hr, hrule⟩

theorem rules_ok {spec : Document} (h : ∀ field ∈ spec, field.1 = "_id" ∨ IsRule field.2) :
    ∃ rs, rules spec = .ok rs := by
  have hread : ∀ field ∈ spec, field.1 ≠ "_id" → ∃ r, rule field.1 field.2 = .ok r := by
    rintro ⟨name, v⟩ hfield hname
    obtain ⟨op, expression, start, rfl, hstart⟩ := (h _ hfield).resolve_left hname
    exact ⟨⟨name, op, expression⟩, by rw [rule, hstart]; rfl⟩
  obtain ⟨rs, hrules, -⟩ := rules_forall hread
  exact ⟨rs, hrules⟩

theorem isRule_lastOf (column : String) : IsRule (Plan.lastOf column) := ⟨_, _, _, rfl, rfl⟩

theorem initial_accumulator (function : AggregateFunction) :
    ∃ start, Accumulator.initial function.accumulator = .ok start := by
  cases function <;> exact ⟨_, rfl⟩

theorem isRule_of_aggregateRule {function : AggregateFunction} {columns : List String} {v : Value}
    (h : Plan.aggregateRule function columns = some v) : IsRule v := by
  unfold Plan.aggregateRule at h
  split at h
  · obtain rfl := Option.some.inj h
    exact ⟨_, _, _, rfl, rfl⟩
  · obtain rfl := Option.some.inj h
    obtain ⟨start, hstart⟩ := initial_accumulator _
    exact ⟨_, _, start, rfl, hstart⟩
  · cases h

end Grouping

namespace Plan

def Unmarked (column : String) : Prop := ¬['.', '*', '.'] <:+: column.toList

theorem markerParts_of_not_infix {cs : List Char} (h : ¬['.', '*', '.'] <:+: cs) :
    markerParts cs = [cs] := by
  induction cs using markerParts.induct with
  | case1 => rfl
  | case2 rest _ => exact absurd (List.prefix_append ['.', '*', '.'] rest).isInfix h
  | case3 c rest hmarker hrest ih =>
    have hparts := ih fun hrest => h (hrest.trans (List.suffix_cons c rest).isInfix)
    rw [hrest] at hparts
    cases hparts
  | case4 c rest hmarker part more hrest ih =>
    have hparts := ih fun hrest => h (hrest.trans (List.suffix_cons c rest).isInfix)
    rw [markerParts, hparts]
    exact hmarker

theorem columnTarget_of_unmarked {column : String} (h : Unmarked column) :
    columnTarget column = .ok (none, column) := by
  rw [columnTarget, markerParts_of_not_infix h]

theorem mapM_columnTarget {columns : List String} (h : ∀ c ∈ columns, Unmarked c) :
    columns.mapM columnTarget = .ok (columns.map fun c => (none, c)) := by
  induction columns with
  | nil => rfl
  | cons c rest ih =>
    obtain ⟨hc, hrest⟩ := List.forall_mem_cons.mp h
    rw [List.mapM_cons, columnTarget_of_unmarked hc, ih hrest]
    rfl

variable (p : Plan)

def keptColumns : List (String × String) :=
  p.groups.map (fun c => (c, c)) ++ p.effectiveColumns.map fun c => (flatName c, c)

/-- The columns that tell rows apart. A column that is kept under the name of the key replaces it. -/
def keyColumns : List String :=
  match p.keptColumns.reverse.lookup "_id" with
  | some c => [c]
  | none => p.groups

theorem keyColumns_of_kept (h : ∀ kept ∈ p.keptColumns, kept.1 ≠ "_id") :
    p.keyColumns = p.groups := by
  have hnone : p.keptColumns.reverse.lookup "_id" = none := by
    rw [List.lookup_eq_none_iff]
    intro kept hkept
    simpa using (h kept (List.mem_reverse.mp hkept)).symm
  rw [keyColumns, hnone]

def groupSpec : Document :=
  match p.aggregate.bind fun a => aggregateRule a.function a.columns with
  | some rule => p.groupFields.insert aggregateField rule
  | none => p.groupFields

theorem groupSpec_forall {q : String × Value → Prop} (hfields : ∀ field ∈ p.groupFields, q field)
    (hrule : ∀ rule, IsRule rule → q (aggregateField, rule)) : ∀ field ∈ p.groupSpec, q field := by
  rw [groupSpec]
  split
  · rename_i rule haggregate
    obtain ⟨a, -, ha⟩ := Option.bind_eq_some_iff.mp haggregate
    exact Document.forall_insert hfields (hrule rule (isRule_of_aggregateRule ha))
  · exact hfields

theorem get?_groupSpec : p.groupSpec.get? "_id" = p.groupFields.get? "_id" := by
  rw [groupSpec]
  split
  · rw [Document.get?_insert_of_ne _ _ _ (by decide)]
  · rfl

theorem groupFields_eq (h : p.groups ≠ []) : p.groupFields =
    Document.merge [("_id", .document (Document.ofFields (p.groups.map fun c => (c, reference c))))]
      (p.keptColumns.map fun kept => (kept.1, lastOf kept.2)) := by
  rw [groupFields, if_neg (by simpa using h), keptColumns, List.map_append, List.map_map,
    List.map_map]
  rfl

theorem contains_groupFields : p.groupFields.contains "_id" = true := by
  by_cases h : p.groups = []
  · rw [groupFields, h]
    rfl
  · rw [groupFields_eq p h, Document.contains, Document.get?_merge]
    cases List.lookup "_id" (p.keptColumns.map fun kept => (kept.1, lastOf kept.2)).reverse <;> rfl

theorem isRule_groupFields : ∀ field ∈ p.groupFields, field.1 = "_id" ∨ IsRule field.2 := by
  by_cases h : p.groups = []
  · rw [groupFields, h]
    simp
  · rw [groupFields_eq p h]
    refine Document.forall_merge (by simp) ?_
    intro field hfield
    obtain ⟨kept, -, rfl⟩ := List.mem_map.mp hfield
    exact Or.inr (isRule_lastOf kept.2)

theorem rules_groupSpec : ∃ rs, rules p.groupSpec = .ok rs :=
  rules_ok (p.groupSpec_forall p.isRule_groupFields fun _ => Or.inr)

theorem lookup_kept (kept : List (String × String)) (name : String) :
    (kept.map fun k => (k.1, lastOf k.2)).lookup name = (kept.lookup name).map lastOf := by
  induction kept with
  | nil => rfl
  | cons k rest ih =>
    obtain ⟨n, c⟩ := k
    rw [List.map_cons, List.lookup_cons, List.lookup_cons, ih]
    cases name == n <;> rfl

theorem key_groupSpec (h : p.groups ≠ []) : ∃ key, p.groupSpec.get? "_id" = some key ∧
    ∀ d e, SameKey (evaluate · key) d e ↔ AgreeOn p.keyColumns d e := by
  -- Of the fields that have the name of the key, the last one stays.
  rw [get?_groupSpec, groupFields_eq p h, Document.get?_merge, ← List.map_reverse, lookup_kept,
    keyColumns]
  rcases p.keptColumns.reverse.lookup "_id" with _ | c
  · obtain ⟨distinct, hdistinct, hevaluate⟩ := evaluate_columns p.groups
    refine ⟨_, rfl, fun d e => ?_⟩
    rw [SameKey, hevaluate, hevaluate, looseEq_columns_iff]
    simp only [AgreeOn, hdistinct]
  · refine ⟨lastOf c, rfl, fun d e => ?_⟩
    simp only [SameKey, evaluate_lastOf]
    simp [Value.looseEq, Value.looseEqFields, AgreeOn]

structure Plain : Prop where
  orders : p.orders = []
  skip : p.skip = none
  limit : p.limit = none
  projection : p.projection = none

variable {p : Plan} {s : Settings}

theorem aggregateStages_of_plain (hplain : p.Plain)
    (hcolumns : ∀ a, p.aggregate = some a → ∀ c ∈ a.columns, Unmarked c) (filter : Document) :
    p.aggregateStages s filter =
      .ok (((nonempty? filter).map Stage.matching).toList ++ [.group p.groupSpec]) := by
  have htargets : ((p.aggregate.map Aggregate.columns).getD []).mapM columnTarget =
      .ok (((p.aggregate.map Aggregate.columns).getD []).map fun c => (none, c)) := by
    apply mapM_columnTarget
    rcases ha : p.aggregate with _ | a
    · simp
    · exact hcolumns a ha
  have hsort : nonempty? (p.sortFields s) = none := by
    simp [nonempty?, sortFields, hplain.orders, Document.ofFields, Document.merge]
  rw [aggregateStages, htargets]
  simp only [bind, Except.bind, pure, Except.pure, hsort, hplain.skip, hplain.limit,
    hplain.projection, List.map_map]
  rcases ha : p.aggregate with _ | a
  · simp [groupSpec, ha, positive?, nonempty?]
  · rcases hrule : aggregateRule a.function a.columns with _ | rule <;>
      simp [groupSpec, ha, hrule, positive?, nonempty?, Function.comp_def]

theorem strategy_of_groups (h : p.groups ≠ []) {filter : Document}
    (hfilter : Scope.filter s p.clauses = .ok filter) : p.strategy s =
      (p.aggregateStages s filter).map fun stages => .aggregate stages (p.aggregateOptions s) := by
  have hcounts : p.countsAll = false := by
    rw [countsAll]
    split <;> simp [h]
  have hgroups : (!p.groups.isEmpty || p.aggregate.isSome) = true := by simp [h]
  rw [strategy, hfilter]
  change p.strategyFor s filter = _
  rw [strategyFor, if_pos hgroups, hcounts]
  rfl

end Plan

namespace Query

variable {q : Query} {m : Metered} {filter : Document}

theorem run_get_of_groups (hgroups : q.plan.groups ≠ []) (hplain : q.plan.Plain)
    (hcolumns : ∀ a, q.plan.aggregate = some a → ∀ c ∈ a.columns, Plan.Unmarked c)
    (hfilter : Scope.filter q.settings q.plan.clauses = .ok filter)
    (honline : m.collection.online = true) {matching : List Document}
    (hselect : Filter.select filter m.collection.documents = .ok matching) {key : Value}
    (hkey : q.plan.groupSpec.get? "_id" = some key) {rs : List Rule}
    (hrules : Grouping.rules q.plan.groupSpec = .ok rs) : (q.get.run m).1 =
      .ok (.documents ((partition (evaluate · key) matching).map (Grouping.row rs))) := by
  have hstrategy : q.strategy = .ok (.aggregate
      (((Plan.nonempty? filter).map Stage.matching).toList ++ [.group q.plan.groupSpec])
      (q.plan.aggregateOptions q.settings)) := by
    rw [strategy, Plan.strategy_of_groups hgroups hfilter,
      Plan.aggregateStages_of_plain hplain hcolumns]
    rfl
  have hgroup : Grouping.group q.plan.groupSpec matching =
      .ok ((partition (evaluate · key) matching).map (Grouping.row rs)) := by
    rw [Grouping.group, hkey, hrules]
    rfl
  rw [get, hstrategy, Request.after, Strategy.request, Request.run_issue, Collection.run,
    if_pos honline, Collection.perform, Pipeline.run_matching, hselect]
  change (((Except.bind (Grouping.group q.plan.groupSpec matching) (Pipeline.run [])).map
    ResultSet.documents).mapError QueryError.store) = _
  rw [hgroup]
  rfl

/-- The rows of a plan that groups are those of the classes of its key columns. These are the classes
of the grouping columns exactly if the two kinds of columns say the same of all matching documents. -/
theorem get_grouped_iff (hgroups : q.plan.groups ≠ []) (hplain : q.plan.Plain)
    (hcolumns : ∀ a, q.plan.aggregate = some a → ∀ c ∈ a.columns, Plan.Unmarked c)
    (hfilter : Scope.filter q.settings q.plan.clauses = .ok filter)
    (hevaluates : ∀ d ∈ m.collection.documents, Filter.Evaluates d filter)
    (honline : m.collection.online = true) : ∃ (rs : List Rule) (groups : List Group),
      Grouping.rules q.plan.groupSpec = .ok rs ∧
      (q.get.run m).1 = .ok (.documents (groups.map (Grouping.row rs))) ∧
      let matching := m.collection.documents.filter (Filter.passes · filter)
      let classes := groups.map Prod.snd
      Partitions (AgreeOn q.plan.keyColumns) classes matching ∧
        (Partitions (AgreeOn q.plan.groups) classes matching ↔ matching.Pairwise fun d e =>
          (AgreeOn q.plan.groups d e ↔ AgreeOn q.plan.keyColumns d e)) ∧
        ((∀ kept ∈ q.plan.keptColumns, kept.1 ≠ "_id") → q.plan.keyColumns = q.plan.groups) := by
  obtain ⟨rs, hrules⟩ := q.plan.rules_groupSpec
  obtain ⟨key, hkey, hsame⟩ := q.plan.key_groupSpec hgroups
  have hselect := Filter.select_eq_ok.mpr ⟨hevaluates, rfl⟩
  have hrun := run_get_of_groups hgroups hplain hcolumns hfilter honline hselect hkey hrules
  refine ⟨rs, _, hrules, hrun, ?_⟩
  intro matching classes
  have hrelation : SameKey (evaluate · key) = AgreeOn q.plan.keyColumns := by
    funext d e
    exact propext (hsame d e)
  have hpartition : Partitions (AgreeOn q.plan.keyColumns) classes matching := by
    rw [← hrelation]
    exact partition_partitions _ _
  refine ⟨hpartition, ?_, q.plan.keyColumns_of_kept⟩
  apply hpartition.iff_pairwise
  · exact fun _ _ => AgreeOn.symm
  · exact fun _ _ => AgreeOn.symm

theorem get_grouped_iff_selected_id :
    let ada : Document := [("_id", .string "a"), ("city", .string "Oslo")]
    let bob : Document := [("_id", .string "b"), ("city", .string "Oslo")]
    let c : Collection := { Collection.empty "people" true with documents := [ada, bob] }
    let q : Query := ⟨(Plan.empty.groupBy ["city"]).select ["_id"], .standard, []⟩
    q.plan.groups ≠ [] ∧ q.plan.Plain ∧
      (∀ a, q.plan.aggregate = some a → ∀ c ∈ a.columns, Plan.Unmarked c) ∧
      Scope.filter q.settings q.plan.clauses = .ok [] ∧
      (∀ d ∈ c.documents, Filter.Evaluates d []) ∧ c.online = true ∧
      ∃ (rs : List Rule) (groups : List Group),
        (q.get.run (.ofCollection c)).1 = .ok (.documents (groups.map (Grouping.row rs))) ∧
        Partitions (AgreeOn ["_id"]) (groups.map Prod.snd) [ada, bob] ∧
        ¬Partitions (AgreeOn ["city"]) (groups.map Prod.snd) [ada, bob] := by
  intro ada bob c q
  have hgroups : q.plan.groups ≠ [] := by simp [q, Plan.groupBy, Plan.select]
  have hplain : q.plan.Plain := ⟨rfl, rfl, rfl, rfl⟩
  have hcolumns : ∀ a, q.plan.aggregate = some a → ∀ c ∈ a.columns, Plan.Unmarked c := by
    rintro a ⟨⟩
  have hevaluates : ∀ d ∈ c.documents, Filter.Evaluates d [] := fun d _ => ⟨true, Filter.holds_nil d⟩
  have hmatching : c.documents.filter (Filter.passes · []) = [ada, bob] :=
    List.filter_eq_self.mpr fun d _ => Filter.passes_of_holds d (Filter.holds_nil d)
  obtain ⟨rs, groups, -, hrun, hpartition, hiff, -⟩ :=
    get_grouped_iff (m := .ofCollection c) hgroups hplain hcolumns rfl hevaluates rfl
  refine ⟨hgroups, hplain, hcolumns, rfl, hevaluates, rfl, rs, groups, hrun, ?_, ?_⟩
  · rwa [← hmatching]
  · intro hcities
    have hsame := hiff.mp (by rwa [← hmatching] at hcities)
    change (c.documents.filter (Filter.passes · [])).Pairwise _ at hsame
    rw [hmatching] at hsame
    have hcity : AgreeOn ["city"] ada bob := by
      intro c hc
      obtain rfl := List.mem_singleton.mp hc
      decide
    have hid := ((List.pairwise_pair.mp hsame).mp hcity) "_id" (by decide)
    exact absurd hid (by decide)

example :
    let ada : Document := [("_id", .string "a"), ("city", .string "Oslo")]
    let bob : Document := [("_id", .string "b"), ("city", .string "Oslo")]
    let c : Collection := { Collection.empty "people" true with documents := [ada, bob] }
    let q : Query := ⟨(Plan.empty.groupBy ["city"]).select ["_id"], .standard, []⟩
    (q.get.run (.ofCollection c)).1 = .ok (.documents
      [[("_id", .document [("$last", .string "a")]), ("city", .string "Oslo")],
        [("_id", .document [("$last", .string "b")]), ("city", .string "Oslo")]]) := rfl

end Query

end RelDoc
