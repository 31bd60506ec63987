import RelDoc.Proofs.PageRows

namespace RelDoc

theorem StoreError.map_bind {α β γ : Type} (x : Except StoreError α) (next : α → Except StoreError β)
    (f : β → γ) : (x.bind next).map f = x.bind fun a => (next a).map f := by
  cases x <;> rfl

namespace Plan

theorem head?_upToLimit {α : Type} (limit : Option UInt64) (rows : List α) :
    (upToLimit limit rows).head? = rows.head? := by
  rw [upToLimit]
  rcases hpositive : positive? limit with _ | n
  · rfl
  · have htaken : 0 < countTaken n.toNat := countTaken_pos (toNat_pos_of_positive? hpositive)
    exact List.head?_take.trans (if_neg (Nat.ne_of_gt htaken))

section limit

variable (s : Settings) (p : Plan) (n : UInt64)

theorem get?_findOptions_limit : (p.findOptions s).get? "limit" =
    (p.options.reverse.lookup "limit").or ((positive? p.limit).map (countValue ·.toNat)) := by
  simp [findOptions, Document.get?_merge, Document.get?_append, Document.get?_optionField,
    Document.get?]

theorem get?_findOptions_limitedTo {key : String} (h : key ≠ "limit") :
    ((p.limitedTo n).findOptions s).get? key = (p.findOptions s).get? key := by
  have hne : ¬"limit" = key := h.symm
  simp only [findOptions, limitedTo, findProjection, effectiveColumns, sortFields,
    Document.get?_merge, Document.get?_append, Document.get?_optionField, if_neg hne]
  rfl

theorem limited_findOptions :
    Collection.limited ((p.limitedTo n).findOptions s) = Collection.limited (p.findOptions s) ∨
    ∀ docs,
      Collection.limited ((p.limitedTo n).findOptions s) docs = .ok (upToLimit (some n) docs) ∧
      Collection.limited (p.findOptions s) docs = .ok (upToLimit p.limit docs) := by
  have hlimited := get?_findOptions_limit s (p.limitedTo n)
  have hown := get?_findOptions_limit s p
  change _ = (p.options.reverse.lookup "limit").or _ at hlimited
  rcases hcaller : p.options.reverse.lookup "limit" with _ | v
  · rw [hcaller, Option.none_or] at hlimited hown
    exact Or.inr fun docs => ⟨limited_of_get? hlimited docs, limited_of_get? hown docs⟩
  · rw [hcaller, Option.some_or] at hlimited hown
    refine Or.inl (funext fun docs => ?_)
    rw [Collection.limited, Collection.limited, hlimited, hown]

theorem head?_projected (options : Document) : ∃ shown : Document → Document, ∀ docs,
    (Collection.projected options docs).head? = docs.head?.map shown := by
  unfold Collection.projected
  split
  · exact ⟨_, fun docs => List.head?_map⟩
  · exact ⟨id, fun docs => Option.map_id_apply.symm⟩

theorem head_perform_find (filter : Document) (c : Collection) :
    (c.perform (.find filter ((p.limitedTo n).findOptions s))).1.map List.head? =
      (c.perform (.find filter (p.findOptions s))).1.map List.head? := by
  have hsorted : Collection.sorted ((p.limitedTo n).findOptions s) =
      Collection.sorted (p.findOptions s) := by
    funext docs
    rw [Collection.sorted, Collection.sorted, get?_findOptions_limitedTo s p n (by decide)]
  have hskipped : Collection.skipped ((p.limitedTo n).findOptions s) =
      Collection.skipped (p.findOptions s) := by
    funext docs
    rw [Collection.skipped, Collection.skipped, get?_findOptions_limitedTo s p n (by decide)]
  have hprojected : Collection.projected ((p.limitedTo n).findOptions s) =
      Collection.projected (p.findOptions s) := by
    funext docs
    rw [Collection.projected, Collection.projected, get?_findOptions_limitedTo s p n (by decide)]
  rw [Collection.perform_find, Collection.perform_find, hsorted, hskipped, hprojected]
  rcases limited_findOptions s p n with hcaller | hplan
  · rw [hcaller]
  · obtain ⟨shown, hshown⟩ := head?_projected (p.findOptions s)
    have hhead (limit : Option UInt64) (docs : List Document) :
        (Except.map (Collection.projected (p.findOptions s))
          (.ok (upToLimit limit docs) : Except StoreError _)).map List.head? =
            .ok (docs.head?.map shown) :=
      congrArg Except.ok ((hshown _).trans (congrArg _ (head?_upToLimit limit docs)))
    simp only [StoreError.map_bind, (hplan _).1, (hplan _).2, hhead]

theorem head_request_find (filter options : Document) (m : Metered) :
    ((Strategy.find filter options).request.run m).1.map (·.rows.head?) =
      (m.collection.reached ((m.collection.perform (.find filter options)).1.map
        List.head?)).mapError .store := by
  rw [Strategy.request, Request.run_issue, Collection.run_answer, Collection.reached_map]
  rcases m.collection.reached (m.collection.perform (.find filter options)).1 with e | rows <;> rfl

theorem head_request_pipeline (filter : Document) (targets : List (Option String × String))
    (m : Metered) : ((Strategy.aggregate (p.orderedStages s filter targets ++
      (cutStages p.skip p.limit ++ p.projectStages))
      (p.aggregateOptions s)).request.run m).1.map (·.rows.head?) =
    ((m.collection.reached (Pipeline.run ((p.orderedStages s filter targets).map Stage.toDocument)
      m.collection.documents)).map fun rows =>
        (afterSkip p.skip rows).head?.map p.shownRow).mapError .store := by
  rw [run_request_pipeline]
  rcases m.collection.reached (Pipeline.run ((p.orderedStages s filter targets).map
    Stage.toDocument) m.collection.documents) with e | rows
  · rfl
  · have hhead : ((cut p.skip p.limit rows).map p.shownRow).head? =
        (afterSkip p.skip rows).head?.map p.shownRow := by
      rw [List.head?_map, cut, head?_upToLimit]
    exact congrArg Except.ok hhead

theorem head_request (filter : Document) (m : Metered) :
    ((Request.after ((p.limitedTo n).strategyFor s filter) Strategy.request).run m).1.map
        (·.rows.head?) =
      ((Request.after (p.strategyFor s filter) Strategy.request).run m).1.map (·.rows.head?) := by
  rcases hgrouped : p.isGrouped with _ | _
  · rcases hdistinct : p.distinct with _ | _
    · have hlimited :=
        strategyFor_of_search (p := p.limitedTo n) (s := s) hgrouped hdistinct filter
      rw [hlimited, strategyFor_of_search hgrouped hdistinct]
      refine (head_request_find _ _ m).trans (Eq.trans ?_ (head_request_find _ _ m).symm)
      rw [head_perform_find]
    · have hignored : (p.limitedTo n).strategyFor s filter = p.strategyFor s filter := by
        rw [isGrouped] at hgrouped
        simp only [strategyFor, limitedTo, hgrouped, hdistinct]
        rfl
      rw [hignored]
  · rcases hcounts : p.countsAll with _ | _
    · have hlimited :=
        strategyFor_of_pipeline (p := p.limitedTo n) (s := s) hgrouped hcounts filter
      change _ = (p.aggregateColumns.mapM columnTarget).map _ at hlimited
      rw [hlimited, strategyFor_of_pipeline hgrouped hcounts]
      rcases p.aggregateColumns.mapM columnTarget with e | targets
      · rfl
      · exact (head_request_pipeline s (p.limitedTo n) filter targets m).trans
          (head_request_pipeline s p filter targets m).symm
    · have hlimited := strategyFor_of_count (p := p.limitedTo n) (s := s) hgrouped hcounts filter
      rw [hlimited, strategyFor_of_count hgrouped hcounts]

end limit

end Plan

namespace Query

variable (q : Query) (m : Metered)

theorem head_get_limitedTo (n : UInt64) :
    ((q.scope (·.limitedTo n)).get.run m).1.map (·.rows.head?) =
      (q.get.run m).1.map (·.rows.head?) := by
  have hlimited : (q.scope (·.limitedTo n)).strategy = (Scope.filter q.settings q.plan.clauses).bind
      ((q.plan.limitedTo n).strategyFor q.settings) := rfl
  have hown : q.strategy = (Scope.filter q.settings q.plan.clauses).bind
      (q.plan.strategyFor q.settings) := rfl
  rw [get, get, hlimited, hown]
  rcases Scope.filter q.settings q.plan.clauses with e | filter
  · rfl
  · exact Plan.head_request q.settings q.plan n filter m

theorem first_eq_head_get : (q.first.run m).1 = (q.get.run m).1.map (·.rows.head?) ∧
    (q.nonempty.run m).1 = (q.get.run m).1.map fun result => !result.rows.isEmpty := by
  have hfirst : (q.first.run m).1 = (q.get.run m).1.map (·.rows.head?) := by
    rw [first, rows, Request.run_map, Request.run_map, ← head_get_limitedTo q m 1]
    rcases ((q.scope (·.limitedTo 1)).get.run m).1 with e | result <;> rfl
  refine ⟨hfirst, ?_⟩
  rw [nonempty, Request.run_map, hfirst]
  rcases (q.get.run m).1 with e | result
  · rfl
  · change Except.ok result.rows.head?.isSome = Except.ok (!result.rows.isEmpty)
    rcases result.rows with _ | ⟨row, more⟩ <;> rfl

end Query

end RelDoc
