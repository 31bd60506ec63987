import RelDoc.Proofs.PlannedPipelines
import RelDoc.Proofs.PlannedSearches

namespace RelDoc

namespace Plan

variable {p : Plan} {s : Settings}

def inOrder (s : Settings) (p : Plan) (docs : List Document) : Except StoreError (List Document) :=
  match nonempty? (p.sortFields s) with
  | some spec => Sorting.sort spec docs
  | none => .ok docs

def shownDocument (p : Plan) (d : Document) : Document :=
  match nonempty? p.findProjection with
  | some spec => d.project spec
  | none => d

theorem sorted_eq (h : p.options = []) (docs : List Document) :
    Collection.sorted (p.findOptions s) docs = p.inOrder s docs := by
  obtain ⟨hsort, -, -⟩ := get?_findOptions (s := s) h
  rw [Collection.sorted, hsort, inOrder]
  cases nonempty? (p.sortFields s) <;> rfl

theorem exists_inOrder (s : Settings) (p : Plan) (docs : List Document) :
    ∃ rows, p.inOrder s docs = .ok rows ∧ rows.Perm docs := by
  let unoptioned : Plan := { p with options := [] }
  have hoptions : unoptioned.options = [] := rfl
  obtain ⟨arranged, harranged⟩ := sorted_findOptions (s := s) hoptions
  have hsorted := harranged docs
  rw [sorted_eq hoptions] at hsorted
  exact ⟨arranged docs, hsorted⟩

theorem skipped_eq (h : p.options = []) (docs : List Document) :
    Collection.skipped (p.findOptions s) docs = .ok (afterSkip p.skip docs) := by
  obtain ⟨-, hskip, -⟩ := get?_findOptions (s := s) h
  rw [Collection.skipped, hskip, afterSkip]
  rcases positive? p.skip with _ | n
  · rfl
  · change (Pipeline.count "skip" (countValue n.toNat)).map docs.drop = _
    rw [count_countValue]
    rfl

theorem limited_of_get? {options : Document} {limit : Option UInt64}
    (h : options.get? "limit" = (positive? limit).map (countValue ·.toNat)) (docs : List Document) :
    Collection.limited options docs = .ok (upToLimit limit docs) := by
  rw [Collection.limited, h, upToLimit]
  rcases hpositive : positive? limit with _ | n
  · rfl
  · have htaken : 0 < countTaken n.toNat := countTaken_pos (toNat_pos_of_positive? hpositive)
    change (Pipeline.count "limit" (countValue n.toNat)).map _ = _
    rw [count_countValue]
    exact congrArg Except.ok (if_neg (Nat.ne_of_gt htaken))

theorem limited_eq (h : p.options = []) (docs : List Document) :
    Collection.limited (p.findOptions s) docs = .ok (upToLimit p.limit docs) := by
  obtain ⟨-, -, hlimit⟩ := get?_findOptions (s := s) h
  exact limited_of_get? hlimit docs

theorem projected_eq (h : p.options = []) (docs : List Document) :
    Collection.projected (p.findOptions s) docs = docs.map p.shownDocument := by
  have hprojection : (p.findOptions s).get? "projection" =
      (nonempty? p.findProjection).map .document := by
    simp [findOptions, h, Document.merge, Document.get?_append, Document.get?_optionField,
      Document.get?]
  rw [Collection.projected, hprojection]
  unfold shownDocument
  rcases nonempty? p.findProjection with _ | spec
  · exact (List.map_id docs).symm
  · rfl

theorem perform_find_plan (h : p.options = []) (filter : Document) (c : Collection) :
    (c.perform (.find filter (p.findOptions s))).1 =
      ((Filter.select filter c.documents).bind (p.inOrder s)).map fun docs =>
        (cut p.skip p.limit docs).map p.shownDocument := by
  rw [Collection.perform_find]
  rcases Filter.select filter c.documents with e | docs
  · rfl
  · simp only [Except.bind, sorted_eq h]
    rcases p.inOrder s docs with e | docs
    · rfl
    · simp only [skipped_eq h, limited_eq h, Except.map, projected_eq h]
      rfl

def isGrouped (p : Plan) : Bool := !p.groups.isEmpty || p.aggregate.isSome

theorem strategyFor_of_search (hgrouped : p.isGrouped = false) (hdistinct : p.distinct = false)
    (filter : Document) : p.strategyFor s filter = .ok (.find filter (p.findOptions s)) := by
  rw [isGrouped] at hgrouped
  rw [strategyFor, hgrouped, hdistinct]
  rfl

theorem strategyFor_of_pipeline (hgrouped : p.isGrouped = true) (hcounts : p.countsAll = false)
    (filter : Document) : p.strategyFor s filter =
      (p.aggregateColumns.mapM columnTarget).map fun targets => .aggregate
        (p.orderedStages s filter targets ++ (cutStages p.skip p.limit ++ p.projectStages))
        (p.aggregateOptions s) := by
  rw [isGrouped] at hgrouped
  rw [strategyFor, hgrouped, hcounts, aggregateStages_eq]
  rcases p.aggregateColumns.mapM columnTarget with e | targets <;> rfl

theorem strategyFor_of_count (hgrouped : p.isGrouped = true) (hcounts : p.countsAll = true)
    (filter : Document) : p.strategyFor s filter = .ok (.count filter) := by
  rw [isGrouped] at hgrouped
  rw [strategyFor, if_pos hgrouped, if_pos hcounts]

theorem search_or_pipeline {filter : Document} {strategy : Strategy}
    (h : p.strategyFor s filter = .ok strategy) (hrows : strategy.isStreamable = true) :
    p.isGrouped = false ∧ p.distinct = false ∨ p.isGrouped = true ∧ p.countsAll = false := by
  rw [strategyFor] at h
  change (if p.isGrouped = true then _ else _) = _ at h
  split at h
  · rename_i hgrouped
    split at h
    · rw [← Except.ok.inj h] at hrows
      cases hrows
    · rename_i hcounts
      exact Or.inr ⟨hgrouped, by simpa using hcounts⟩
  · rename_i hgrouped
    split at h
    · rw [← Except.ok.inj h] at hrows
      cases hrows
    · rename_i hdistinct
      exact Or.inl ⟨by simpa using hgrouped, by simpa using hdistinct⟩

end Plan

def Collection.reached {α : Type} (c : Collection) (answer : Except StoreError α) :
    Except StoreError α :=
  if c.online then answer else .error (.offline c.name)

theorem Collection.run_answer {α : Type} (c : Collection) (command : Command α) :
    (c.run command).1 = c.reached (c.perform command).1 := by
  rw [run, reached]
  split <;> rfl

theorem Collection.reached_map {α β : Type} (c : Collection) (answer : Except StoreError α)
    (f : α → β) : c.reached (answer.map f) = (c.reached answer).map f := by
  rw [reached, reached]
  split <;> rfl

theorem Plan.run_request_pipeline (p : Plan) (s : Settings) (filter : Document)
    (targets : List (Option String × String)) (m : Metered) :
    ((Strategy.aggregate (p.orderedStages s filter targets ++
      (cutStages p.skip p.limit ++ p.projectStages)) (p.aggregateOptions s)).request.run m).1 =
    ((m.collection.reached (Pipeline.run ((p.orderedStages s filter targets).map Stage.toDocument)
      m.collection.documents)).map fun rows => ResultSet.documents
        ((cut p.skip p.limit rows).map p.shownRow)).mapError .store := by
  rw [Strategy.request, Request.run_issue, Collection.run_answer, Collection.perform, run_stages,
    Collection.reached_map]
  rcases m.collection.reached (Pipeline.run ((p.orderedStages s filter targets).map
    Stage.toDocument) m.collection.documents) with e | rows <;> rfl

namespace Query

variable {q : Query} {m : Metered} {filter : Document}

theorem run_get_of_search (hfilter : Scope.filter q.settings q.plan.clauses = .ok filter)
    (hgrouped : q.plan.isGrouped = false) (hdistinct : q.plan.distinct = false)
    (hoptions : q.plan.options = []) :
    (q.get.run m).1 = ((m.collection.reached ((Filter.select filter m.collection.documents).bind
      (q.plan.inOrder q.settings))).map fun docs => ResultSet.documents
        ((Plan.cut q.plan.skip q.plan.limit docs).map q.plan.shownDocument)).mapError .store := by
  have hstrategy : q.strategy = .ok (.find filter (q.plan.findOptions q.settings)) := by
    rw [strategy, Plan.strategy, hfilter]
    exact Plan.strategyFor_of_search hgrouped hdistinct filter
  rw [get, hstrategy, Request.after, Strategy.request, Request.run_issue, Collection.run_answer,
    Plan.perform_find_plan hoptions, Collection.reached_map]
  rcases m.collection.reached ((Filter.select filter m.collection.documents).bind
    (q.plan.inOrder q.settings)) with e | docs <;> rfl

theorem run_get_of_pipeline (hfilter : Scope.filter q.settings q.plan.clauses = .ok filter)
    (hgrouped : q.plan.isGrouped = true) (hcounts : q.plan.countsAll = false)
    {targets : List (Option String × String)}
    (htargets : q.plan.aggregateColumns.mapM Plan.columnTarget = .ok targets) :
    (q.get.run m).1 = ((m.collection.reached (Pipeline.run
      ((q.plan.orderedStages q.settings filter targets).map Stage.toDocument)
      m.collection.documents)).map fun rows => ResultSet.documents
        ((Plan.cut q.plan.skip q.plan.limit rows).map q.plan.shownRow)).mapError .store := by
  have hstrategy : q.strategy = .ok (.aggregate (q.plan.orderedStages q.settings filter targets ++
      (Plan.cutStages q.plan.skip q.plan.limit ++ q.plan.projectStages))
      (q.plan.aggregateOptions q.settings)) := by
    rw [strategy, Plan.strategy, hfilter]
    change q.plan.strategyFor q.settings filter = _
    rw [Plan.strategyFor_of_pipeline hgrouped hcounts, htargets]
    rfl
  rw [get, hstrategy]
  exact q.plan.run_request_pipeline q.settings filter targets m

def cutTo (q : Query) (skip limit : Option UInt64) : Query :=
  q.scope fun p => { p with skip, limit }

theorem cutTo_self (q : Query) : q.cutTo q.plan.skip q.plan.limit = q := by
  obtain ⟨⟨⟩, _, _⟩ := q
  rfl

theorem run_get_cut {strategy : Strategy} (hstrategy : q.strategy = .ok strategy)
    (hrows : strategy.isStreamable = true) (hoptions : q.plan.options = []) (m : Metered) :
    ∃ (ordered : Except StoreError (List Document)) (shown : Document → Document),
      ∀ skip limit, ((q.cutTo skip limit).get.run m).1 = (ordered.map fun rows =>
        ResultSet.documents ((Plan.cut skip limit rows).map shown)).mapError .store := by
  rw [Query.strategy, Plan.strategy] at hstrategy
  rcases hfilter : Scope.filter q.settings q.plan.clauses with e | filter
  · rw [hfilter] at hstrategy
    cases hstrategy
  · rw [hfilter] at hstrategy
    change q.plan.strategyFor q.settings filter = _ at hstrategy
    rcases Plan.search_or_pipeline hstrategy hrows with ⟨hgrouped, hdistinct⟩ | ⟨hgrouped, hcounts⟩
    · exact ⟨m.collection.reached ((Filter.select filter m.collection.documents).bind
          (q.plan.inOrder q.settings)), q.plan.shownDocument, fun skip limit =>
        run_get_of_search (q := q.cutTo skip limit) (m := m) hfilter hgrouped hdistinct hoptions⟩
    · rw [Plan.strategyFor_of_pipeline hgrouped hcounts] at hstrategy
      rcases htargets : q.plan.aggregateColumns.mapM Plan.columnTarget with e | targets
      · rw [htargets] at hstrategy
        cases hstrategy
      · exact ⟨m.collection.reached (Pipeline.run ((q.plan.orderedStages q.settings filter
            targets).map Stage.toDocument) m.collection.documents), q.plan.shownRow,
          fun skip limit => run_get_of_pipeline (q := q.cutTo skip limit) (m := m) hfilter hgrouped
            hcounts htargets⟩

end Query

section pageRows

variable {α : Type} (size : Nat) (rows : List α)

def pageRows (i : Nat) : List α := (rows.drop (i * size)).take size

theorem flatMap_pageRows (n : Nat) :
    (List.range n).flatMap (pageRows size rows) = rows.take (n * size) := by
  induction n with
  | zero => rw [Nat.zero_mul, List.take_zero, List.range_zero, List.flatMap_nil]
  | succ n ih =>
    rw [Nat.succ_mul, List.take_add, ← ih, List.range_succ, List.flatMap_append]
    exact congrArg _ (List.flatMap_singleton _ n)

theorem pageRows_eq_nil (hsize : 0 < size) (i : Nat) :
    pageRows size rows i = [] ↔ rows.length ≤ i * size := by
  rw [pageRows, List.take_eq_nil_iff, List.drop_eq_nil_iff]
  omega

theorem drop_min_word (hfew : rows.length < 2 ^ 53) (n : Nat) :
    rows.drop (min n (2 ^ 64 - 1)) = rows.drop n := by
  rcases Nat.le_total n (2 ^ 64 - 1) with hle | hge
  · rw [Nat.min_eq_left hle]
  · rw [Nat.min_eq_right hge, List.drop_eq_nil_of_le (by omega), List.drop_eq_nil_of_le (by omega)]

end pageRows

theorem Plan.toNat_rowsBefore (page size : UInt64) : (rowsBefore page size).toNat =
    min ((page.toNat - 1) * size.toNat) (2 ^ 64 - 1) := by
  have hsize : UInt64.size = 2 ^ 64 := rfl
  rw [rowsBefore]
  by_cases h : (page.toNat - 1) * size.toNat < UInt64.size
  · rw [UInt64.toNat_ofNatClamp_of_lt h]
    omega
  · have hlast : UInt64.ofNatClamp ((page.toNat - 1) * size.toNat) =
        UInt64.ofNatLT (UInt64.size - 1) (by decide) := dif_neg h
    rw [hlast, UInt64.toNat_ofNatLT]
    omega

namespace Query

variable {q : Query} {m : Metered}

/-- The pages of one size are the pieces of the whole result: the page with a number has the rows at its
places, all pages together have every row once, and a page is empty exactly if it lies past the end. -/
theorem pages_partition {strategy : Strategy} (hstrategy : q.strategy = .ok strategy)
    (hrows : strategy.isStreamable = true) (hskip : q.plan.skip = none) (hlimit : q.plan.limit = none)
    (hoptions : q.plan.options = []) {rows : List Document}
    (hget : (q.get.run m).1 = .ok (.documents rows)) (hfew : rows.length < 2 ^ 53) {size : UInt64}
    (hsize : 1 ≤ size) :
    (∀ page : UInt64, ((q.scope (·.page page size)).get.run m).1 =
      .ok (.documents (pageRows size.toNat rows (page.toNat - 1)))) ∧
    (∀ n, (List.range n).flatMap (pageRows size.toNat rows) = rows.take (n * size.toNat)) ∧
    (∀ n, rows.length ≤ n * size.toNat →
      (List.range n).flatMap (pageRows size.toNat rows) = rows) ∧
    ∀ i, pageRows size.toNat rows i = [] ↔ rows.length ≤ i * size.toNat := by
  have hpos : 1 ≤ size.toNat := UInt64.le_iff_toNat_le.mp hsize
  refine ⟨fun page => ?_, flatMap_pageRows _ rows, fun n hn => ?_, pageRows_eq_nil _ rows hpos⟩
  · obtain ⟨ordered, shown, hcut⟩ := run_get_cut hstrategy hrows hoptions m
    have hwhole : ((q.cutTo none none).get.run m).1 = .ok (.documents rows) := by
      have hsame := q.cutTo_self
      rw [hskip, hlimit] at hsame
      rw [hsame, hget]
    rw [hcut] at hwhole
    rcases ordered with e | docs
    · cases hwhole
    · obtain rfl : docs.map shown = rows := by
        have hdocuments := Except.ok.inj hwhole
        exact ResultSet.documents.inj hdocuments
      have hne : size ≠ 0 := by
        rintro rfl
        exact absurd hpos (by decide)
      have hpage := hcut (some (Plan.rowsBefore page size)) (some size)
      rw [Except.map, Plan.map_cut, Plan.cut_some hfew _ hne, Plan.toNat_rowsBefore,
        drop_min_word _ hfew] at hpage
      exact hpage
  · rw [flatMap_pageRows, List.take_of_length_le hn]

theorem second_page_of_cities :
    let person (id city : String) : Document := [("_id", .string id), ("city", .string city)]
    let c : Collection := { Collection.empty "people" true with
      documents := [person "a" "Oslo", person "b" "Rome", person "c" "Oslo", person "d" "Lima"] }
    let q : Query := ⟨Plan.empty.groupBy ["city"], .standard, []⟩
    ((q.scope (·.page 2 2)).get.run (.ofCollection c)).1 = .ok (.documents
      [[("_id", .document [("city", .string "Lima")]), ("city", .string "Lima")]]) := by
  intro person c q
  let row (city : String) : Document := [("_id", .document [("city", .string city)]),
    ("city", .string city)]
  have hget : (q.get.run (.ofCollection c)).1 =
      .ok (.documents [row "Oslo", row "Rome", row "Lima"]) := rfl
  have hsize : (1 : UInt64) ≤ 2 := by decide
  obtain ⟨hpages, -⟩ := pages_partition (q := q) rfl rfl rfl rfl rfl hget (by decide) hsize
  exact hpages 2

end Query

end RelDoc
