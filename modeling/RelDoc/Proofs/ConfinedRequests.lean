import RelDoc.Proofs.CollectionWrites
import RelDoc.Query.Basic

namespace RelDoc

def Collection.ChangedWhere (p : Document → Prop) (before after : Document) : Prop :=
  after = before ∨ p before

def Metered.keeping (m : Metered) (keep : Document → Bool) : Metered :=
  { m with collection := { m.collection with documents := m.collection.documents.filter keep } }

namespace Request

variable {α β : Type}

/-- A successful answer changes nothing, and leaving out documents without `p` does not change it. -/
def ReadsOnly (r : Request α) (p : Document → Prop) : Prop :=
  ∀ m a, (r.run m).1 = .ok a → (r.run m).2.collection = m.collection ∧
    ∀ keep : Document → Bool, (∀ d ∈ m.collection.documents, p d → keep d = true) →
      (r.run (m.keeping keep)).1 = .ok a

def DeletesOnly (r : Request α) (p : Document → Prop) : Prop :=
  ∀ m, ∃ keep : Document → Bool,
    (r.run m).2.collection.documents = m.collection.documents.filter keep ∧
      ∀ d ∈ m.collection.documents, keep d = false → p d

def ChangesOnly (r : Request α) (p : Document → Prop) : Prop :=
  ∀ m, ∃ kept added, (r.run m).2.collection.documents = kept ++ added ∧
    List.Forall₂ (Collection.ChangedWhere p) m.collection.documents kept ∧
      (added = [] ∨ kept = m.collection.documents)

theorem run_issue (command : Command β) (answer : β → α) (m : Metered) :
    (issue command answer).run m =
      (((m.collection.run command).1.map answer).mapError .store, (m.run command).2) := rfl

theorem run_map (r : Request α) (f : α → β) (m : Metered) :
    (r.map f).run m = ((r.run m).1.map f, (r.run m).2) := by
  cases r with
  | settled answer => rfl
  | issue command answer =>
    simp only [map, run_issue]
    rcases (m.collection.run command).1 with e | b <;> rfl

theorem ReadsOnly.map {r : Request α} {p : Document → Prop} (h : r.ReadsOnly p) (f : α → β) :
    (r.map f).ReadsOnly p := by
  intro m b hb
  rw [run_map] at hb ⊢
  rcases ha : (r.run m).1 with e | a
  · rw [ha] at hb; exact absurd hb (by simp [Except.map])
  · rw [ha] at hb
    obtain ⟨hsame, hkeep⟩ := h m a ha
    refine ⟨hsame, fun keep hk => ?_⟩
    rw [run_map, hkeep keep hk, hb]

theorem readsOnly_settled (answer : Except QueryError α) (p : Document → Prop) :
    (settled answer).ReadsOnly p :=
  fun _ _ ha => ⟨rfl, fun _ _ => ha⟩

theorem changesOnly_settled (answer : Except QueryError α) (p : Document → Prop) :
    (settled answer).ChangesOnly p :=
  fun m => ⟨m.collection.documents, [], by simp [run_settled],
    List.forall₂_same.mpr fun _ _ => Or.inl rfl, Or.inl rfl⟩

theorem readsOnly_issue {command : Command β} {p : Document → Prop}
    (h : ∀ (c : Collection) (b : β), (c.perform command).1 = .ok b → (c.perform command).2 = c ∧
      ∀ keep : Document → Bool, (∀ d ∈ c.documents, p d → keep d = true) →
        (({ c with documents := c.documents.filter keep } : Collection).perform command).1 = .ok b)
    (answer : β → α) : (issue command answer).ReadsOnly p := by
  intro m a ha
  rw [run_issue] at ha ⊢
  by_cases honline : m.collection.online = true
  · have hrun : m.collection.run command = m.collection.perform command := by
      simp [Collection.run, honline]
    rcases hb : (m.collection.perform command).1 with e | b
    · rw [hrun, hb] at ha
      exact absurd ha (by simp [Except.map, Except.mapError])
    · obtain ⟨hsame, hkeep⟩ := h m.collection b hb
      refine ⟨by simpa only [Metered.run, hrun] using hsame, fun keep hk => ?_⟩
      have hrun' : (m.keeping keep).collection.run command =
          (m.keeping keep).collection.perform command := by
        simp [Collection.run, Metered.keeping, honline]
      rw [run_issue, hrun', Metered.keeping, hkeep keep hk, ← ha, hrun, hb]
  · rw [Collection.run_offline _ _ (by simpa using honline)] at ha
    exact absurd ha (by simp [Except.map, Except.mapError])

theorem readsOnly_after {β : Type} {x : Except QueryError β} {next : β → Request α}
    {p : Document → Prop} (h : ∀ b, x = .ok b → (next b).ReadsOnly p) :
    (after x next).ReadsOnly p := by
  cases x with
  | ok b => exact h b rfl
  | error e => exact readsOnly_settled _ p

end Request

namespace Collection

variable (filter : Document) (c : Collection)

theorem perform_find (options : Document) :
    c.perform (.find filter options) = ((Filter.select filter c.documents).bind fun docs =>
      ((sorted options docs).bind (skipped options)).bind fun docs =>
        (limited options docs).map (projected options), c) := by
  simp only [perform, find, Prod.mk.injEq, and_true]
  rcases Filter.select filter c.documents with e | docs
  · rfl
  · simp only [bind, Except.bind]
    rcases sorted options docs with e | docs
    · rfl
    · simp only
      rcases skipped options docs with e | docs
      · rfl
      · rcases hl : limited options docs with e | docs <;>
          simp [hl, Except.map, pure, Except.pure]

theorem perform_count :
    c.perform (.count filter) =
      ((Filter.select filter c.documents).bind fun docs => .ok docs.length, c) := by
  rw [perform]
  rcases Filter.select filter c.documents with e | docs <;> rfl

theorem perform_distinct (column : String) :
    c.perform (.distinct column filter) =
      ((Filter.select filter c.documents).bind fun docs => .ok (distinctValues column docs), c) := by
  rw [perform]
  rcases Filter.select filter c.documents with e | docs <;> rfl

end Collection

theorem Pipeline.run_matching (filter : Document) (stages : List Stage) (docs : List Document) :
    run ((((Plan.nonempty? filter).map Stage.matching).toList ++ stages).map Stage.toDocument) docs =
      (Filter.select filter docs).bind (run (stages.map Stage.toDocument)) := by
  by_cases he : filter = []
  · subst he
    rw [Filter.select_nil]
    rfl
  · have hf : Plan.nonempty? filter = some filter := by simp [Plan.nonempty?, he]
    rw [hf]
    rfl

section reads

variable {p : Document → Prop} {filter : Document} (hp : ∀ d, Filter.holds d filter = .ok true → p d)
include hp

theorem Filter.select_confined {docs chosen : List Document} {keep : Document → Bool}
    (hk : ∀ d ∈ docs, p d → keep d = true) (h : Filter.select filter docs = .ok chosen) :
    Filter.select filter (docs.filter keep) = .ok chosen :=
  Filter.select_filter h fun d hd hpass => hk d hd (hp d ((Filter.passes_iff d filter).mp hpass))

theorem Request.readsOnly_of_select {α β : Type} {command : Command β}
    {next : List Document → Except StoreError β}
    (h : ∀ c : Collection, c.perform command = ((Filter.select filter c.documents).bind next, c))
    (answer : β → α) : (Request.issue command answer).ReadsOnly p := by
  refine readsOnly_issue (fun c b hb => ⟨by rw [h], fun keep hk => ?_⟩) answer
  rw [h] at hb ⊢
  rcases hs : Filter.select filter c.documents with e | chosen
  · rw [hs] at hb; exact absurd hb (by simp [Except.bind])
  · rw [Filter.select_confined hp hk hs, ← hs, hb]

theorem Pipeline.run_confined {stages : List Stage} {docs out : List Document}
    {keep : Document → Bool} (hk : ∀ d ∈ docs, p d → keep d = true)
    (h : Pipeline.run ((((Plan.nonempty? filter).map Stage.matching).toList ++ stages).map
      Stage.toDocument) docs = .ok out) :
    Pipeline.run ((((Plan.nonempty? filter).map Stage.matching).toList ++ stages).map
      Stage.toDocument) (docs.filter keep) = .ok out := by
  rw [run_matching] at h ⊢
  rcases hs : Filter.select filter docs with e | chosen
  · rw [hs] at h; exact absurd h (by simp [Except.bind])
  · rw [Filter.select_confined hp hk hs, ← hs, h]

omit hp in
theorem Plan.aggregateStages_eq_ok {s : Settings} {plan : Plan} {stages : List Stage}
    (h : plan.aggregateStages s filter = .ok stages) :
    ∃ rest, stages = ((Plan.nonempty? filter).map Stage.matching).toList ++ rest := by
  unfold aggregateStages at h
  rcases ht : ((plan.aggregate.map Aggregate.columns).getD []).mapM columnTarget with e | targets
  · rw [ht] at h; exact absurd h (by simp [bind, Except.bind])
  · rw [ht] at h
    simp only [bind, Except.bind, pure, Except.pure, Except.ok.injEq, List.append_assoc] at h
    exact ⟨_, h.symm⟩

theorem Strategy.request_readsOnly {s : Settings} {plan : Plan} {strategy : Strategy}
    (h : plan.strategyFor s filter = .ok strategy) : strategy.request.ReadsOnly p := by
  unfold Plan.strategyFor at h
  split at h
  · split at h
    · obtain rfl := Except.ok.inj h
      exact Request.readsOnly_of_select hp (Collection.perform_count filter) _
    · rcases hs : plan.aggregateStages s filter with e | stages
      · rw [hs] at h; exact absurd h (by simp [Except.map])
      · rw [hs] at h
        obtain rfl := Except.ok.inj h
        obtain ⟨rest, rfl⟩ := Plan.aggregateStages_eq_ok hs
        refine Request.readsOnly_issue (fun c b hb => ⟨rfl, fun keep hk => ?_⟩) _
        simp only [Collection.perform] at hb ⊢
        exact Pipeline.run_confined hp hk hb
  · split at h
    · obtain rfl := Except.ok.inj h
      exact Request.readsOnly_of_select hp (Collection.perform_distinct filter · _) _
    · obtain rfl := Except.ok.inj h
      exact Request.readsOnly_of_select hp (Collection.perform_find filter · _) _

end reads

namespace Query

variable {q : Query} {p : Document → Prop}

def ScopeWithin (q : Query) (p : Document → Prop) : Prop :=
  ∀ f, Scope.filter q.settings q.plan.clauses = .ok f → ∀ d, Filter.holds d f = .ok true → p d

theorem get_readsOnly (h : q.ScopeWithin p) : q.get.ReadsOnly p := by
  apply Request.readsOnly_after
  intro strategy hs
  unfold Query.strategy Plan.strategy at hs
  rcases hf : Scope.filter q.settings q.plan.clauses with e | f
  · rw [hf] at hs; exact absurd hs (by simp [bind, Except.bind])
  · rw [hf] at hs
    exact Strategy.request_readsOnly (h f hf) hs

theorem first_readsOnly (h : q.ScopeWithin p) : q.first.ReadsOnly p := by
  have hlimited : (q.scope (·.limitedTo 1)).ScopeWithin p := h
  exact ((get_readsOnly hlimited).map _).map _

theorem delete_deletesOnly (h : q.ScopeWithin p) : q.delete.DeletesOnly p := by
  intro m
  unfold delete
  rcases hf : Scope.filter q.settings q.plan.clauses with e | f
  · exact ⟨fun _ => true, by simp [Request.after, Request.run_settled], by simp⟩
  · obtain ⟨keep, hkeep, hp⟩ := Collection.run_delete f m.collection
    exact ⟨keep, hkeep, fun d hd hk => h f hf d (hp d hd hk)⟩

theorem mutate_changesOnly (mutation : Mutation)
    (h : ∀ f, Scope.filter q.settings (q.plan.clauses ++ mutation.guard.toList) = .ok f →
      ∀ d, Filter.holds d f = .ok true → p d) : (q.mutate mutation).ChangesOnly p := by
  unfold mutate
  rcases hf : Scope.filter q.settings (q.plan.clauses ++ mutation.guard.toList) with e | f
  · exact Request.changesOnly_settled _ p
  · intro m
    obtain ⟨kept, added, hdocs, hkept, hadded, -⟩ := Collection.run_update f m.collection
      mutation.operations (Mutation.options q.settings q.writeOptions)
    refine ⟨kept, added, hdocs, hkept.imp fun d e hde => ?_, hadded⟩
    exact hde.imp_right fun hchanged => h f hf d hchanged.1

end Query

end RelDoc
