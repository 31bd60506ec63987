import Mathlib
import RelDoc.Proofs.CompletedUpdates
import RelDoc.Proofs.PlannedSearches
import RelDoc.Proofs.RowCounts

namespace RelDoc

namespace Filter

variable {filter : Document} {docs : List Document}

def error? (filter d : Document) : Option StoreError :=
  match holds d filter with
  | .ok _ => none
  | .error e => some e

def firstError? (filter : Document) (docs : List Document) : Option StoreError :=
  docs.findSome? (error? filter)

theorem error?_eq_none (filter d : Document) : error? filter d = none ↔ Evaluates d filter := by
  rw [error?, Evaluates]
  rcases holds d filter with e | b <;> simp

theorem firstError?_eq_none :
    firstError? filter docs = none ↔ ∀ d ∈ docs, Evaluates d filter := by
  simp only [firstError?, List.findSome?_eq_none_iff, error?_eq_none]

theorem partition_error {e : StoreError} (h : firstError? filter docs = some e) :
    partition filter docs = .error e := by
  induction docs with
  | nil => cases h
  | cons d rest ih =>
    rw [firstError?, List.findSome?_cons, error?] at h
    rw [partition]
    rcases hd : holds d filter with e' | b
    · rw [hd] at h
      obtain rfl := Option.some.inj h
      rfl
    · rw [hd] at h
      have hrest := ih h
      rw [hrest]
      rfl

theorem select_error {e : StoreError} (h : firstError? filter docs = some e) :
    select filter docs = .error e := by
  rw [select, partition_error h]
  rfl

theorem select_ok (h : firstError? filter docs = none) :
    select filter docs = .ok (docs.filter (passes · filter)) :=
  select_eq_ok.mpr ⟨firstError?_eq_none.mp h, rfl⟩

end Filter

namespace Collection

open RelDoc.Filter

variable {filter : Document} {c : Collection}

theorem run_match (filter options : Document) (c : Collection) (honline : c.online = true) :
    (c.run (.aggregate [Stage.toDocument (.matching filter)] options)).1 =
      select filter c.documents := by
  rw [run, if_pos honline, perform]
  change (select filter c.documents).bind (Pipeline.run []) = _
  rcases select filter c.documents with e | docs <;> rfl

theorem run_count (filter : Document) (c : Collection) (honline : c.online = true) :
    (c.run (.count filter)).1 = (select filter c.documents).map List.length := by
  rw [run, if_pos honline]
  rfl

theorem run_find_all (filter : Document) (c : Collection) (honline : c.online = true) :
    (c.run (.find filter [])).1 = select filter c.documents := by
  rw [run, if_pos honline, perform_find]
  rcases select filter c.documents with e | docs <;> rfl

theorem run_error (honline : c.online = true) {e : StoreError}
    (h : firstError? filter c.documents = some e) :
    (∀ options, (c.run (.find filter options)).1 = .error e) ∧
      (∀ options, (c.run (.aggregate [Stage.toDocument (.matching filter)] options)).1 = .error e) ∧
      (c.run (.count filter)).1 = .error e ∧ (c.run (.delete filter)).1 = .error e := by
  have hselect : select filter c.documents = .error e := select_error h
  refine ⟨fun options => ?_, fun options => ?_, ?_, ?_⟩
  · rw [run, if_pos honline, perform_find, hselect]
    rfl
  · rw [run_match filter options c honline, hselect]
  · rw [run_count filter c honline, hselect]
    rfl
  · rw [run, if_pos honline, perform, deleteMany, partition_error h]

theorem run_delete_ok (honline : c.online = true) (hack : c.acknowledged = true)
    (h : firstError? filter c.documents = none) : c.run (.delete filter) =
      (.ok ⟨true, (c.documents.filter (passes · filter)).length⟩,
        { c with documents := c.documents.filter (!passes · filter) }) := by
  have hpartition := partition_eq_ok.mpr ⟨firstError?_eq_none.mp h, rfl⟩
  rw [run, if_pos honline, perform, deleteMany, hpartition, hack]
  rfl

theorem select_remaining (h : firstError? filter c.documents = none) :
    select filter (c.documents.filter (!passes · filter)) = .ok [] := by
  have hleft : firstError? filter (c.documents.filter (!passes · filter)) = none := by
    rw [firstError?_eq_none] at h ⊢
    intro d hd
    exact h d (List.mem_filter.mp hd).1
  have hnone : (c.documents.filter (!passes · filter)).filter (passes · filter) = [] := by
    rw [List.filter_filter, List.filter_eq_nil_iff]
    intro d _
    simp
  rw [select_ok hleft, hnone]

end Collection

namespace Query

variable {q : Query} {filter : Document} {m : Metered}

theorem countOf_countValue (n : Nat) : countOf (some (countValue n)) = min n (2 ^ 63 - 1) := by
  rw [countValue, countOf, toInt_ofIntClamp, Int.toNat_natCast]

theorem run_get_of_whole (hplan : q.plan.Whole)
    (hfilter : Scope.filter q.settings q.plan.clauses = .ok filter) :
    (q.get.run m).1.map ResultSet.length = (m.collection.run (.count filter)).1.mapError .store := by
  obtain ⟨-, hskip, hlimit⟩ := Plan.get?_findOptions (s := q.settings) hplan.options
  obtain ⟨arranged, harranged⟩ := Plan.sorted_findOptions (s := q.settings) hplan.options
  have hstrategy : q.strategy = .ok (.find filter (q.plan.findOptions q.settings)) := by
    rw [strategy, Plan.strategy, hfilter]
    exact Plan.strategyFor_of_whole hplan filter
  rw [get, hstrategy, Request.after, Strategy.request, Request.run_issue]
  by_cases honline : m.collection.online = true
  · rw [Collection.run, Collection.run, if_pos honline, if_pos honline, Collection.perform_find,
      Collection.perform_count]
    rcases Filter.select filter m.collection.documents with e | docs
    · rfl
    · obtain ⟨hsorted, hperm⟩ := harranged docs
      have hlength : (Collection.projected (q.plan.findOptions q.settings) (arranged docs)).length =
          docs.length := by
        rw [Collection.length_projected, hperm.length_eq]
      simp only [Except.bind, hsorted, Collection.skipped, hskip, hplan.skip, Collection.limited,
        hlimit, hplan.limit]
      exact congrArg Except.ok hlength
  · have hoffline : m.collection.online = false := by simpa using honline
    rw [Collection.run_offline _ _ hoffline, Collection.run_offline _ _ hoffline]
    rfl

theorem run_count_of_filter (hgroups : q.plan.groups = [])
    (hfilter : Scope.filter q.settings q.plan.clauses = .ok filter) :
    (q.count.run m).1 =
      ((m.collection.run (.count filter)).1.mapError .store).map (min · (2 ^ 63 - 1)) := by
  have hstrategy : (q.scope fun p => (p.select ["*"]).aggregating .count ["*"]).strategy =
      .ok (.count filter) := by
    rw [strategy, Plan.strategy]
    change (Scope.filter q.settings q.plan.clauses).bind _ = _
    rw [hfilter]
    simp [Except.bind, Plan.strategyFor, scope, Plan.aggregating, Plan.select, Plan.countsAll,
      hgroups]
  rw [count, aggregateValue, rows, get, hstrategy, Request.after, Strategy.request, Request.run_map,
    Request.run_map, Request.run_map, Request.run_issue]
  rcases (m.collection.run (.count filter)).1 with e | n
  · rfl
  · exact congrArg Except.ok (countOf_countValue n)

theorem run_count_eq (hplan : q.plan.Whole) (m : Metered) :
    (q.count.run m).1 = (q.get.run m).1.map fun r => min r.length (2 ^ 63 - 1) := by
  rcases hfilter : Scope.filter q.settings q.plan.clauses with e | filter
  · have hget : q.strategy = .error e := by
      rw [strategy, Plan.strategy, hfilter]
      rfl
    have hcount : (q.scope fun p => (p.select ["*"]).aggregating .count ["*"]).strategy =
        .error e := by
      rw [strategy, Plan.strategy]
      change (Scope.filter q.settings q.plan.clauses).bind _ = _
      rw [hfilter]
      rfl
    rw [count, aggregateValue, rows, get, get, hget, hcount]
    rfl
  · rw [run_count_of_filter hplan.groups hfilter, ← run_get_of_whole hplan hfilter]
    rcases (q.get.run m).1 with e | r <;> rfl

theorem length_get_le (hplan : q.plan.Whole) {r : ResultSet} (h : (q.get.run m).1 = .ok r) :
    r.length ≤ m.collection.documents.length := by
  rcases hfilter : Scope.filter q.settings q.plan.clauses with e | filter
  · have hstrategy : q.strategy = .error e := by
      rw [strategy, Plan.strategy, hfilter]
      rfl
    rw [get, hstrategy] at h
    cases h
  · have hcount := run_get_of_whole (m := m) hplan hfilter
    rw [h] at hcount
    by_cases honline : m.collection.online = true
    · rw [Collection.run_count filter _ honline] at hcount
      rcases hselect : Filter.select filter m.collection.documents with e | docs
      · rw [hselect] at hcount
        cases hcount
      · rw [hselect] at hcount
        have hlength : r.length = docs.length := Except.ok.inj hcount
        obtain ⟨-, rfl⟩ := Filter.select_eq_ok.mp hselect
        rw [hlength]
        exact List.length_filter_le _ _
    · rw [Collection.run_offline _ _ (by simpa using honline)] at hcount
      cases hcount

end Query

open RelDoc.Filter

/-- A filter selects the same documents under every command, and what it fails with is the error on the
first document on which it has no truth value. So a query counts the rows that it gets. A store reports
no number above `2 ^ 63 - 1`, and holds fewer documents. -/
theorem Collection.commands_agree {c : Collection} (honline : c.online = true)
    (hack : c.acknowledged = true) (filter : Document) :
    (∀ e, firstError? filter c.documents = some e →
      (∀ options, (c.run (.find filter options)).1 = .error e) ∧
      (∀ options, (c.run (.aggregate [Stage.toDocument (.matching filter)] options)).1 = .error e) ∧
      (c.run (.count filter)).1 = .error e ∧ (c.run (.delete filter)).1 = .error e) ∧
    (firstError? filter c.documents = none →
      let chosen := c.documents.filter (passes · filter)
      (c.run (.find filter [])).1 = .ok chosen ∧
      (∀ options, (c.run (.aggregate [Stage.toDocument (.matching filter)] options)).1 = .ok chosen) ∧
      (c.run (.count filter)).1 = .ok chosen.length ∧
      (c.run (.delete filter)).1 = .ok ⟨true, chosen.length⟩ ∧
      (c.run (.delete filter)).2.documents = c.documents.filter (!passes · filter) ∧
      ((c.run (.delete filter)).2.run (.count filter)).1 = .ok 0 ∧
      ∀ operations report, (c.run (.update filter operations [])).1 = .ok report →
        report.matched = chosen.length) ∧
    ∀ (q : Query) (m : Metered), q.plan.Whole →
      (q.count.run m).1 = (q.get.run m).1.map (fun r => min r.length (2 ^ 63 - 1)) ∧
      (m.collection.documents.length < 2 ^ 63 →
        (q.count.run m).1 = (q.get.run m).1.map ResultSet.length) := by
  refine ⟨fun e => run_error honline, fun hnone => ?_, fun q m hplan => ?_⟩
  · have hselect : select filter c.documents = .ok (c.documents.filter (passes · filter)) :=
      select_ok hnone
    have hdelete := run_delete_ok honline hack hnone
    refine ⟨?_, fun options => ?_, ?_, by rw [hdelete], by rw [hdelete], ?_,
      fun operations report hreport => ?_⟩
    · rw [run_find_all filter c honline, hselect]
    · rw [run_match filter options c honline, hselect]
    · rw [run_count filter c honline, hselect]
      rfl
    · let remaining : Collection := { c with documents := c.documents.filter (!passes · filter) }
      have hcounted : (remaining.run (.count filter)).1 = .ok 0 := by
        rw [run_count filter remaining honline, select_remaining hnone]
        rfl
      rw [hdelete]
      exact hcounted
    · obtain ⟨-, -, hmatched⟩ := run_update_ok honline rfl rfl hreport
      exact hmatched hack
  · have hcount := Query.run_count_eq hplan m
    refine ⟨hcount, fun hfew => ?_⟩
    rw [hcount]
    rcases hrows : (q.get.run m).1 with e | r
    · rfl
    · have hlength : r.length ≤ m.collection.documents.length := Query.length_get_le hplan hrows
      have hmin : min r.length (2 ^ 63 - 1) = r.length := by omega
      exact congrArg Except.ok hmin

theorem Collection.commands_agree_oslo :
    let c : Collection := { empty "people" true with documents :=
      [[("city", .string "Rome")], [("city", .string "Oslo")], [("city", .string "Oslo"), ("n", .null)]] }
    let oslo : Document := [("city", .string "Oslo")]
    let near : Document := oslo ++ [("n", .document [("$near", .int32 1)])]
    let q : Query := ⟨(Plan.empty.filter (.compare "city" "=" (.string "Oslo") false)).orderBy "n"
      .descending, .standard, []⟩
    c.online = true ∧ c.acknowledged = true ∧
      firstError? near c.documents = some (.unsupported "$near") ∧
      (c.run (.delete near)).1 = .error (.unsupported "$near") ∧
      firstError? oslo c.documents = none ∧ (c.run (.delete oslo)).1 = .ok ⟨true, 2⟩ ∧
      q.plan.Whole ∧ c.documents.length < 2 ^ 63 ∧
      (q.count.run (.ofCollection c)).1 = (q.get.run (.ofCollection c)).1.map ResultSet.length := by
  intro c oslo near q
  have hnear : firstError? near c.documents = some (.unsupported "$near") := rfl
  have hoslo : firstError? oslo c.documents = none := rfl
  have hplan : q.plan.Whole := ⟨rfl, rfl, rfl, rfl, rfl, rfl⟩
  have hfew : c.documents.length < 2 ^ 63 := by decide
  obtain ⟨-, -, -, hfails⟩ := (commands_agree rfl rfl near).1 _ hnear
  obtain ⟨-, -, -, hdeleted, -⟩ := (commands_agree rfl rfl oslo).2.1 hoslo
  obtain ⟨-, hcount⟩ := (commands_agree (c := c) rfl rfl oslo).2.2 q (.ofCollection c) hplan
  exact ⟨rfl, rfl, hnear, hfails, hoslo, hdeleted, hplan, hfew, hcount hfew⟩

end RelDoc
