import RelDoc.Proofs.GroupedRows
import RelDoc.Proofs.PageRows
import RelDoc.Proofs.UnderstoodClauses

namespace RelDoc

open RelDoc.Filter

def Stage.Succeeds (stage : Stage) : Prop :=
  ∀ docs, ∃ rows, Pipeline.stage stage.name stage.argument docs = .ok rows

theorem Pipeline.run_of_succeeds {stages : List Stage} (h : ∀ stage ∈ stages, stage.Succeeds)
    (docs : List Document) : ∃ rows, run (stages.map Stage.toDocument) docs = .ok rows := by
  induction stages generalizing docs with
  | nil => exact ⟨docs, rfl⟩
  | cons stage rest ih =>
    obtain ⟨hstage, hrest⟩ := List.forall_mem_cons.mp h
    obtain ⟨next, hnext⟩ := hstage docs
    rw [run_cons, hnext]
    exact ih hrest next

namespace Plan

variable {p : Plan} {s : Settings} {filter : Document}

theorem succeeds_matching (h : ∀ d, Evaluates d filter) : (Stage.matching filter).Succeeds :=
  fun _ => ⟨_, select_eq_ok.mpr ⟨fun d _ => h d, rfl⟩⟩

theorem succeeds_unwind (path : String) : (Stage.unwind path).Succeeds := by
  intro docs
  exact ⟨_, Pipeline.stage_unwind path docs⟩

theorem succeeds_sort (s : Settings) (p : Plan) : (Stage.sort (p.sortFields s)).Succeeds := by
  obtain ⟨ks, hks⟩ := Sorting.keys_ok (numeric_sortFields (p := p) (s := s))
  intro docs
  refine ⟨docs.mergeSort fun a b => Sorting.compareBy a b ks != .gt, ?_⟩
  change (Sorting.keys (p.sortFields s)).map _ = _
  rw [hks]
  rfl

theorem succeeds_group (p : Plan) (paths : List String) :
    (Stage.group (p.groupSpecOn paths)).Succeeds := by
  have hspec : (p.groupSpecOn paths).contains "_id" = true ∧
      ∀ field ∈ p.groupSpecOn paths, field.1 = "_id" ∨ Grouping.IsRule field.2 := by
    rw [groupSpecOn]
    split
    · rename_i rule hrule
      obtain ⟨a, -, ha⟩ := Option.bind_eq_some_iff.mp hrule
      refine ⟨Document.contains_insert _ rule p.contains_groupFields, ?_⟩
      exact Document.forall_insert p.isRule_groupFields
        (Or.inr (Grouping.isRule_of_aggregateRule ha))
    · exact ⟨p.contains_groupFields, p.isRule_groupFields⟩
  obtain ⟨key, hkey⟩ := Option.isSome_iff_exists.mp hspec.1
  obtain ⟨rs, hrs⟩ := Grouping.rules_ok hspec.2
  intro docs
  refine ⟨(Grouping.partition (Grouping.evaluate · key) docs).map (Grouping.row rs), ?_⟩
  change Grouping.group (p.groupSpecOn paths) docs = _
  rw [Grouping.group, hkey, hrs]
  rfl

theorem succeeds_orderedStages (h : ∀ d, Evaluates d filter) (targets : List (Option String × String)) :
    ∀ stage ∈ p.orderedStages s filter targets, stage.Succeeds := by
  have hoption (d : Option Document) (f : Document → Stage)
      (hd : ∀ spec, d = some spec → (f spec).Succeeds) :
      ∀ stage ∈ ((nonempty? d).map f).toList, stage.Succeeds := by
    intro stage hstage
    obtain ⟨spec, hspec, rfl⟩ := Option.map_eq_some_iff.mp (Option.mem_toList.mp hstage)
    exact hd spec (Option.filter_eq_some_iff.mp hspec).1
  intro stage hstage
  simp only [orderedStages, List.mem_append, List.mem_singleton] at hstage
  rcases hstage with ((hmatch | hunwind) | rfl) | hsort
  · refine hoption _ _ (fun spec hspec => ?_) stage hmatch
    obtain rfl := Option.some.inj hspec
    exact succeeds_matching h
  · obtain ⟨path, -, rfl⟩ := List.mem_map.mp hunwind
    exact succeeds_unwind path
  · exact succeeds_group p _
  · refine hoption _ _ (fun spec hspec => ?_) stage hsort
    obtain rfl := Option.some.inj hspec
    exact succeeds_sort s p

theorem strategyFor_cases {strategy : Strategy} (h : p.strategyFor s filter = .ok strategy) :
    strategy = .count filter ∨
    (∃ targets, strategy = .aggregate
      (p.orderedStages s filter targets ++ (cutStages p.skip p.limit ++ p.projectStages))
      (p.aggregateOptions s)) ∨
    (∃ column, strategy = .distinct column filter) ∨ strategy = .find filter (p.findOptions s) := by
  rw [strategyFor] at h
  split at h
  · split at h
    · exact Or.inl (Except.ok.inj h).symm
    · rw [aggregateStages_eq] at h
      rcases htargets : p.aggregateColumns.mapM columnTarget with e | targets
      · rw [htargets] at h
        cases h
      · rw [htargets] at h
        exact Or.inr (Or.inl ⟨targets, (Except.ok.inj h).symm⟩)
  · split at h
    · exact Or.inr (Or.inr (Or.inl ⟨_, (Except.ok.inj h).symm⟩))
    · exact Or.inr (Or.inr (Or.inr (Except.ok.inj h).symm))

end Plan

theorem Request.run_issue_ok {α β : Type} {command : Command β} {m : Metered}
    (honline : m.collection.online = true) (h : ∃ b, (m.collection.perform command).1 = .ok b)
    (answer : β → α) : ∃ a, ((Request.issue command answer).run m).1 = .ok a := by
  obtain ⟨b, hb⟩ := h
  refine ⟨answer b, ?_⟩
  rw [run_issue, Collection.run_answer, Collection.reached, if_pos honline, hb]
  rfl

namespace Strategy

variable {p : Plan} {s : Settings} {filter : Document} {strategy : Strategy}

theorem run_request_ok (h : p.strategyFor s filter = .ok strategy)
    (hev : ∀ d, Evaluates d filter) (hoptions : p.options = []) {m : Metered}
    (honline : m.collection.online = true) : ∃ result, (strategy.request.run m).1 = .ok result := by
  have hselect := select_eq_ok.mpr ⟨fun d (_ : d ∈ m.collection.documents) => hev d, rfl⟩
  rcases Plan.strategyFor_cases h with rfl | ⟨targets, rfl⟩ | ⟨column, rfl⟩ | rfl
  all_goals apply Request.run_issue_ok honline
  · rw [Collection.perform_count, hselect]
    exact ⟨_, rfl⟩
  · obtain ⟨rows, hrows⟩ := Pipeline.run_of_succeeds
      (Plan.succeeds_orderedStages (p := p) (s := s) hev targets) m.collection.documents
    rw [Collection.perform, Plan.run_stages, hrows]
    exact ⟨_, rfl⟩
  · rw [Collection.perform_distinct, hselect]
    exact ⟨_, rfl⟩
  · obtain ⟨rows, hrows, -⟩ := p.exists_inOrder s (m.collection.documents.filter (passes · filter))
    rw [Plan.perform_find_plan hoptions, hselect, Except.bind, hrows]
    exact ⟨_, rfl⟩

theorem planned_command_succeeds
    (hclauses : ∀ c ∈ Scope.allLeaves p.clauses, c.Understood) (hoptions : p.options = [])
    (hstrategy : p.strategy s = .ok strategy) {m : Metered} (honline : m.collection.online = true) :
    ∃ result, (strategy.request.run m).1 = .ok result := by
  rw [Plan.strategy] at hstrategy
  rcases hfilter : Scope.filter s p.clauses with e | filter
  · rw [hfilter] at hstrategy
    cases hstrategy
  · rw [hfilter] at hstrategy
    exact run_request_ok hstrategy (Scope.evaluates_filter_understood hclauses hfilter) hoptions
      honline

theorem planned_command_succeeds_like :
    let likes : Clause := ⟨.and, .compare "name" "not like" (.string "A%(") false⟩
    let inside : Clause := ⟨.or, .compare "city" "exists" (.boolean true) true⟩
    let p : Plan := { Plan.empty with
      clauses := [likes, ⟨.and, .nested { Plan.empty with clauses := [inside] }⟩]
      groups := ["city"]
      aggregate := some ⟨.sum, ["orders.*.total"]⟩
      orders := [("city", .descending)] }
    let m : Metered := .ofCollection { Collection.empty "people" true with
      documents := [[("name", .string "Bob(")], [("name", .array [.null]), ("orders", .int32 1)]] }
    (∀ c ∈ Scope.allLeaves p.clauses, c.Understood) ∧
      ∃ strategy result, p.strategy .standard = .ok strategy ∧
        (strategy.request.run m).1 = .ok result := by
  intro likes inside p m
  have hclauses : ∀ c ∈ Scope.allLeaves p.clauses, c.Understood := by
    intro c hc
    simp only [p, likes, inside, Scope.allLeaves, Scope.leaves, List.append_nil, List.cons_append,
      List.nil_append, List.mem_cons, List.not_mem_nil, or_false] at hc
    rcases hc with rfl | rfl
    · refine ⟨by decide, rfl, fun op hop => ?_⟩
      cases hop
      rfl
    · refine ⟨by decide, rfl, fun op hop => ?_⟩
      cases hop
      rfl
  obtain ⟨strategy, hstrategy⟩ : ∃ strategy, p.strategy .standard = .ok strategy := ⟨_, rfl⟩
  obtain ⟨result, hresult⟩ := planned_command_succeeds (m := m) hclauses rfl hstrategy rfl
  exact ⟨hclauses, strategy, result, hstrategy, hresult⟩

end Strategy

end RelDoc
