import RelDoc.Proofs.PlanShapes
import RelDoc.Query.Basic

namespace RelDoc

open Wire

namespace Plan

theorem text_orderJson_inj (o o' : String × Direction)
    (h : (orderJson o).text = (orderJson o').text) : o = o' := by
  rcases o with ⟨column, direction⟩
  rcases o' with ⟨column', direction'⟩
  obtain ⟨hcolumn, hrest⟩ := List.cons.inj (Json.text_array_inj h)
  obtain ⟨hdirection, -⟩ := List.cons.inj hrest
  obtain rfl := Json.text_string_iff.mp hcolumn
  cases direction <;> cases direction' <;>
    simp [Direction.text] at hdirection ⊢

theorem text_aggregate_inj (a b : Aggregate) (h : a.toJson.text = b.toJson.text) : a = b := by
  rcases a with ⟨function, columns⟩
  rcases b with ⟨function', columns'⟩
  obtain ⟨hfunction, hrest⟩ := List.cons.inj (Json.text_object_inj h)
  obtain ⟨hcolumns, -⟩ := List.cons.inj hrest
  obtain rfl := Json.text_strings_inj (Prod.mk.inj hcolumns).2
  have htext := Json.text_string_iff.mp (Prod.mk.inj hfunction).2
  cases function <;> cases function' <;>
    simp [AggregateFunction.text] at htext ⊢

theorem text_words_inj {x y : Option UInt64}
    (h : (Json.ofOption wordJson x).text = (Json.ofOption wordJson y).text) : x = y := by
  apply Json.text_ofOption_inj _ _ h
  · exact fun n => Json.text_integer_ne_null _
  · intro a b hab
    exact UInt64.toNat_inj.mp (Int.ofNat.inj (Json.text_integer_inj hab))

structure SameOptions (p q : Plan) : Prop where
  projection : p.projection = q.projection
  timeout : p.timeout = q.timeout
  hint : p.hint = q.hint
  options : p.options = q.options

theorem eq_of_shape {nameSpace : String} {p q : Plan} (hoptions : p.SameOptions q)
    (h : (p.shape nameSpace).text = (q.shape nameSpace).text) :
    (clausesJson p.clauses).map Json.text = (clausesJson q.clauses).map Json.text ∧
      q = { p with clauses := q.clauses, distinct := q.distinct } := by
  have htexts := Json.text_array_inj h
  simp only [List.map_cons, List.cons.injEq, and_true] at htexts
  obtain ⟨-, hclauses, hcolumns, hgroups, horders, hskip, hlimit, haggregate⟩ := htexts
  refine ⟨Json.text_array_inj hclauses, ?_⟩
  rw [Json.text_strings_inj hcolumns, Json.text_strings_inj hgroups,
    Json.text_list_inj text_orderJson_inj horders, text_words_inj hskip, text_words_inj hlimit,
    Json.text_ofOption_inj (fun a h => by cases h) text_aggregate_inj haggregate,
    hoptions.projection, hoptions.timeout, hoptions.hint, hoptions.options]
  cases q
  rfl

variable (s : Settings)

def gathers (p : Plan) : Bool := !p.groups.isEmpty || p.aggregate.isSome

theorem matching_inj {f g : Document} (h : ((nonempty? (some f)).map Stage.matching).toList =
    ((nonempty? (some g)).map Stage.matching).toList) : f = g := by
  rcases f with _ | ⟨field, f⟩ <;> rcases g with _ | ⟨field', g⟩
  · rfl
  · cases h
  · cases h
  · exact Stage.matching.inj (List.cons.inj h).1

theorem filter_eq_of_aggregateStages {p : Plan} {f g : Document} {stages : List Stage}
    (hf : p.aggregateStages s f = .ok stages) (hg : p.aggregateStages s g = .ok stages) : f = g := by
  rw [aggregateStages] at hf hg
  rcases htargets : ((p.aggregate.map Aggregate.columns).getD []).mapM columnTarget with
    _ | targets
  · rw [htargets] at hf
    cases hf
  · rw [htargets] at hf hg
    have hstages := Except.ok.inj (hf.trans hg.symm)
    simp only [List.append_cancel_right_eq] at hstages
    exact matching_inj hstages

variable {p : Plan} {clauses : List Clause} {distinct : Bool}

theorem eq_of_strategyFor {f g : Document} {strategy : Strategy}
    (hf : p.strategyFor s f = .ok strategy)
    (hg : ({ p with clauses, distinct } : Plan).strategyFor s g = .ok strategy) :
    f = g ∧ (p.distinct = distinct ∨ p.gathers = true) := by
  rw [strategyFor] at hf hg
  change (if p.gathers then if p.countsAll then _ else _ else if p.distinct then _ else _) = _ at hf
  change (if p.gathers then if p.countsAll then _ else (p.aggregateStages s g).map _ else
    if distinct then _ else _) = _ at hg
  by_cases hgathers : p.gathers = true
  · refine ⟨?_, Or.inr hgathers⟩
    rw [if_pos hgathers] at hf hg
    by_cases hcounts : p.countsAll = true
    · rw [if_pos hcounts] at hf hg
      exact Strategy.count.inj (Except.ok.inj (hf.trans hg.symm))
    · rw [if_neg hcounts] at hf hg
      rcases hstages : p.aggregateStages s f with _ | stages
      · rw [hstages] at hf
        cases hf
      · rcases hmore : p.aggregateStages s g with _ | more
        · rw [hmore] at hg
          cases hg
        · rw [hstages] at hf
          rw [hmore] at hg
          obtain ⟨rfl, -⟩ := Strategy.aggregate.inj (Except.ok.inj (hf.trans hg.symm))
          exact filter_eq_of_aggregateStages s hstages hmore
  · rw [if_neg hgathers] at hf hg
    have heq := hf.trans hg.symm
    cases hp : p.distinct <;> cases distinct
    case false.false =>
      rw [hp] at heq
      exact ⟨(Strategy.find.inj (Except.ok.inj heq)).1, Or.inl rfl⟩
    case true.true =>
      rw [hp] at heq
      exact ⟨(Strategy.distinct.inj (Except.ok.inj heq)).2, Or.inl rfl⟩
    -- A search is no lookup of distinct values.
    all_goals
      rw [hp] at heq
      cases heq

theorem strategyFor_eq (h : p.distinct = distinct ∨ p.gathers = true) (f : Document) :
    ({ p with clauses, distinct } : Plan).strategyFor s f = p.strategyFor s f := by
  rw [strategyFor, strategyFor]
  change (if p.gathers then _ else _) = (if p.gathers then _ else _)
  rcases h with rfl | h
  · rfl
  · rw [if_pos h, if_pos h]
    rfl

theorem strategy_of_filter {f : Document} (h : Scope.filter s p.clauses = .ok f) :
    p.strategy s = p.strategyFor s f := by
  rw [strategy, h]
  rfl

theorem exists_of_strategy {strategy : Strategy} (h : p.strategy s = .ok strategy) :
    ∃ f, Scope.filter s p.clauses = .ok f ∧ p.strategyFor s f = .ok strategy := by
  rw [Plan.strategy] at h
  rcases hfilter : Scope.filter s p.clauses with _ | f
  · rw [hfilter] at h
    cases h
  · rw [hfilter] at h
    exact ⟨f, rfl, h⟩

theorem strategy_eq {f : Document} (hf : Scope.filter s p.clauses = .ok f)
    (hg : Scope.filter s clauses = .ok f) (hdistinct : p.distinct = distinct ∨ p.gathers = true) :
    p.strategy s = ({ p with clauses, distinct } : Plan).strategy s := by
  have hq : ({ p with clauses, distinct } : Plan).strategy s =
      ({ p with clauses, distinct } : Plan).strategyFor s f := strategy_of_filter s hg
  rw [hq, strategy_of_filter s hf, strategyFor_eq s hdistinct f]

theorem strategy_eq_iff :
    (p.strategy s).toOption = (({ p with clauses, distinct } : Plan).strategy s).toOption ↔
      (p.strategy s).toOption = none ∧
          (({ p with clauses, distinct } : Plan).strategy s).toOption = none ∨
        (∃ f, Scope.filter s p.clauses = .ok f ∧ Scope.filter s clauses = .ok f) ∧
          (p.distinct = distinct ∨ p.gathers = true) := by
  constructor
  · intro h
    rcases hp : p.strategy s with _ | strategy
    · rw [hp] at h
      exact Or.inl ⟨rfl, h.symm⟩
    · rcases hq : ({ p with clauses, distinct } : Plan).strategy s with _ | other
      · rw [hp, hq] at h
        cases h
      · rw [hp, hq] at h
        obtain rfl : strategy = other := Option.some.inj h
        obtain ⟨f, hf, hpf⟩ := exists_of_strategy s hp
        obtain ⟨g, hg, hqg⟩ := exists_of_strategy s hq
        obtain ⟨rfl, hdistinct⟩ := eq_of_strategyFor s hpf hqg
        exact Or.inr ⟨⟨f, hf, hg⟩, hdistinct⟩
  · rintro (⟨hp, hq⟩ | ⟨⟨f, hf, hg⟩, hdistinct⟩)
    · rw [hp, hq]
    · rw [strategy_eq s hf hg hdistinct]

end Plan

namespace Scope

theorem filter_eq_of_text (s : Settings) {cs ds : List Clause}
    (hc : Condition.clausesLegible cs = true) (hd : Condition.clausesLegible ds = true)
    (h : (Plan.clausesJson cs).map Json.text = (Plan.clausesJson ds).map Json.text) :
    filter s cs = filter s ds := by
  rw [filter, filter, compile, compile, fragments_eq_of_text s cs ds hc hd h]

end Scope

namespace Plan

/-- Plans of one shape and with the same options are carried out in the same way just when neither
can be, or they have the same filter and agree on asking for distinct values, which does not count
when they group or aggregate. They have the same filter if all their clauses are legible. -/
theorem strategy_of_shape (s : Settings) (nameSpace : String) (p q : Plan)
    (hoptions : p.SameOptions q) (hshape : (p.shape nameSpace).text = (q.shape nameSpace).text) :
    ((p.strategy s).toOption = (q.strategy s).toOption ↔
        (p.strategy s).toOption = none ∧ (q.strategy s).toOption = none ∨
          (∃ f, Scope.filter s p.clauses = .ok f ∧ Scope.filter s q.clauses = .ok f) ∧
            (p.distinct = q.distinct ∨ p.gathers = true)) ∧
      (Condition.clausesLegible p.clauses = true → Condition.clausesLegible q.clauses = true →
        Scope.filter s p.clauses = Scope.filter s q.clauses ∧
          (p.distinct = q.distinct ∨ p.gathers = true → p.strategy s = q.strategy s ∧
            ∀ writeOptions m, (Query.get ⟨p, s, writeOptions⟩).run m =
              (Query.get ⟨q, s, writeOptions⟩).run m)) := by
  obtain ⟨htexts, hq⟩ := eq_of_shape hoptions hshape
  obtain ⟨clauses, distinct, rfl⟩ : ∃ clauses distinct, q = { p with clauses, distinct } :=
    ⟨_, _, hq⟩
  refine ⟨strategy_eq_iff s, fun hp hq => ?_⟩
  have hfilter : Scope.filter s p.clauses = Scope.filter s clauses :=
    Scope.filter_eq_of_text s hp hq htexts
  refine ⟨hfilter, fun hdistinct => ?_⟩
  have hstrategy : p.strategy s = ({ p with clauses, distinct } : Plan).strategy s := by
    rcases hf : Scope.filter s p.clauses with e | f
    · have hg : Scope.filter s clauses = .error e := hfilter.symm.trans hf
      rw [strategy, strategy, hf, hg]
      rfl
    · exact strategy_eq s hf (hfilter.symm.trans hf) hdistinct
  refine ⟨hstrategy, fun writeOptions m => ?_⟩
  rw [Query.get, Query.get, Query.strategy, Query.strategy, hstrategy]

theorem strategy_of_shape_distinct :
    let adults := Plan.empty.filter (.compare "age" ">=" (.integer 18) false)
    let p := adults.select ["city"]
    let q := adults.distinctOn (some "city")
    (p.shape "app.users").text = (q.shape "app.users").text ∧
      Scope.filter .standard p.clauses = Scope.filter .standard q.clauses ∧
      (p.strategy .standard).toOption ≠ (q.strategy .standard).toOption := by
  intro adults p q
  have hshape : (p.shape "app.users").text = (q.shape "app.users").text := rfl
  obtain ⟨hiff, hlegible⟩ := strategy_of_shape .standard "app.users" p q ⟨rfl, rfl, rfl, rfl⟩ hshape
  refine ⟨hshape, (hlegible rfl rfl).1, fun heq => ?_⟩
  rcases hiff.mp heq with ⟨hnone, -⟩ | ⟨-, hdistinct | hgathers⟩
  · have hsome : (p.strategy .standard).toOption.isSome = true := by decide +kernel
    rw [hnone] at hsome
    cases hsome
  · cases hdistinct
  · cases hgathers

end Plan

end RelDoc
