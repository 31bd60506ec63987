import RelDoc.Proofs.ClauseReading
import RelDoc.Proofs.ConfinedRequests

namespace RelDoc.Scope

variable {s : Settings} {doc : Document} {fs : List Fragment} {g : Document}

theorem rejoined_append (fs : List Fragment) (g : Document) :
    rejoined (fs ++ [(.and, g)]) = rejoined fs ++ [(.and, g)] := by
  rcases fs with _ | ⟨⟨_ | _, f⟩, _ | ⟨⟨join, h⟩, rest⟩⟩ <;> rfl

theorem assemble_insert {gs : List Fragment} (hne : fs ++ gs ≠ []) (join : Join) (g : Document) :
    assemble (fs ++ (join, g) :: gs) = lists (rejoined (fs ++ (join, g) :: gs)) := by
  apply assemble_eq_lists
  intro f hsingle
  have hlength := congrArg List.length hsingle
  simp only [List.length_append, List.length_cons, List.length_nil] at hlength
  apply hne
  rw [← List.length_eq_zero_iff, List.length_append]
  omega

theorem assemble_append (h : fs ≠ []) (g : Document) :
    assemble (fs ++ [(.and, g)]) = lists (rejoined fs ++ [(.and, g)]) := by
  rw [assemble_insert (by rwa [List.append_nil]), rejoined_append]

theorem verdict_append (vs : List (Join × Bool)) (b : Bool) :
    verdict (vs ++ [(.and, b)]) = (verdict vs && b) := by
  have hand : (∀ v ∈ vs ++ [(.and, b)], v.1 = .and → v.2 = true) ↔
      (∀ v ∈ vs, v.1 = .and → v.2 = true) ∧ b = true := by
    rw [List.forall_mem_append, List.forall_mem_singleton]
    exact and_congr_right fun _ => forall_prop_of_true rfl
  have hany : (∃ v ∈ vs ++ [(.and, b)], v.1 = .or) ↔ ∃ v ∈ vs, v.1 = .or := by simp
  have hor : (∃ v ∈ vs ++ [(.and, b)], v.1 = .or ∧ v.2 = true) ↔
      ∃ v ∈ vs, v.1 = .or ∧ v.2 = true := by simp
  rw [Bool.eq_iff_iff, Bool.and_eq_true, verdict, decide_eq_true_iff, hand, hany, hor, verdict,
    decide_eq_true_iff]
  exact and_right_comm

theorem holds_assemble_append (hn : ∀ f ∈ fs ++ [(.and, g)], f.2.keys.Nodup)
    (h : ∀ f ∈ fs ++ [(.and, g)], Filter.Evaluates doc f.2) : ∃ a b,
    Filter.holds doc (assemble fs).toDocument = .ok a ∧
      Filter.holds doc (assemble [(.and, g)]).toDocument = .ok b ∧
      Filter.holds doc (assemble (fs ++ [(.and, g)])).toDocument = .ok (a && b) := by
  have hg : verdict (truths doc (rejoined [(.and, g)])) = Filter.passes doc g := by
    simp [verdict, truths, rejoined]
  have htruths : truths doc (rejoined (fs ++ [(.and, g)])) =
      truths doc (rejoined fs) ++ [(.and, Filter.passes doc g)] := by
    rw [rejoined_append, truths, List.map_append]; rfl
  obtain ⟨hnfs, hng⟩ := List.forall_mem_append.mp hn
  obtain ⟨hfs, hgs⟩ := List.forall_mem_append.mp h
  refine ⟨_, _, holds_assemble hnfs hfs, holds_assemble hng hgs, ?_⟩
  rw [holds_assemble hn h, hg, htruths, verdict_append]

theorem holds_of_assemble_append (hn : ∀ f ∈ fs ++ [(.and, g)], f.2.keys.Nodup)
    (h : Filter.holds doc (assemble (fs ++ [(.and, g)])).toDocument = .ok true) :
    Filter.holds doc (assemble fs).toDocument = .ok true ∧
      Filter.holds doc (assemble [(.and, g)]).toDocument = .ok true := by
  -- Parts that have no truth value may stand behind one that fails, so only success is compared.
  obtain ⟨hnfs, hng⟩ := List.forall_mem_append.mp hn
  by_cases he : fs = []
  · subst he
    exact ⟨Filter.holds_nil doc, h⟩
  · rw [assemble_append he, holds_lists_eq_true, collected_append, List.forall_mem_append] at h
    obtain ⟨⟨hands, hg⟩, hors⟩ := h
    rw [listed_append_of_ne _ (by simp)] at hors
    have hg' : Filter.holds doc g = .ok true := hg g (by simp [collected])
    refine ⟨?_, holds_merge_nil (hng _ (List.mem_singleton_self _)) hg'⟩
    by_cases hs : ∃ f, fs = [(.and, f)]
    · obtain ⟨f, rfl⟩ := hs
      exact holds_merge_nil (hnfs _ (List.mem_singleton_self _)) (hands f (by simp [collected, rejoined]))
    · rw [assemble_eq_lists fun f hf => hs ⟨f, hf⟩, holds_lists_eq_true]
      exact ⟨hands, hors⟩

def ClausesEvaluate (s : Settings) (doc : Document) (clauses : List Clause) : Prop :=
  ∀ clause ∈ clauses, ∀ f, fragment s clause.condition = .ok f → Filter.Evaluates doc f

def Admits (s : Settings) (clauses : List Clause) (doc : Document) : Prop :=
  ∃ f, filter s clauses = .ok f ∧ Filter.holds doc f = .ok true

variable {cs : List Clause} {c : Condition}

theorem fragments_append {ds : List Clause} {gs : List Fragment} (hfs : fragments s cs = .ok fs)
    (hgs : fragments s ds = .ok gs) : fragments s (cs ++ ds) = .ok (fs ++ gs) := by
  induction cs generalizing fs with
  | nil =>
    obtain rfl := fragments_nil.mp hfs
    exact hgs
  | cons clause rest ih =>
    obtain ⟨f, more, hf, hrest, rfl⟩ := fragments_cons.mp hfs
    exact fragments_cons.mpr ⟨f, more ++ gs, hf, ih hrest, rfl⟩

theorem fragments_of_append {ds : List Clause} {hs : List Fragment}
    (h : fragments s (cs ++ ds) = .ok hs) :
    ∃ fs gs, fragments s cs = .ok fs ∧ fragments s ds = .ok gs ∧ hs = fs ++ gs := by
  induction cs generalizing hs with
  | nil => exact ⟨[], hs, by rw [fragments], h, rfl⟩
  | cons clause rest ih =>
    obtain ⟨f, more, hf, hrest, rfl⟩ := fragments_cons.mp h
    obtain ⟨fs, gs, hfs, hgs, rfl⟩ := ih hrest
    exact ⟨(clause.join, f) :: fs, gs, fragments_cons.mpr ⟨f, fs, hf, hfs, rfl⟩, hgs, rfl⟩

theorem fragments_singleton {clause : Clause} {gs : List Fragment}
    (h : fragments s [clause] = .ok gs) :
    ∃ g, fragment s clause.condition = .ok g ∧ gs = [(clause.join, g)] := by
  obtain ⟨g, more, hg, hmore, rfl⟩ := fragments_cons.mp h
  obtain rfl := fragments_nil.mp hmore
  exact ⟨g, hg, rfl⟩

theorem evaluates_fragments (hfs : fragments s cs = .ok fs) (h : ClausesEvaluate s doc cs) :
    ∀ f ∈ fs, Filter.Evaluates doc f.2 := by
  intro f hf
  obtain ⟨clause, hclause, -, hfragment⟩ := mem_fragments hfs hf
  exact h clause hclause f.2 hfragment

theorem evaluates_filter {f : Document} (hf : filter s cs = .ok f) (hraw : RawKeysDistinct cs)
    (h : ClausesEvaluate s doc cs) : Filter.Evaluates doc f := by
  obtain ⟨fs, hfs, rfl⟩ := filter_eq_ok.mp hf
  exact ⟨_, holds_assemble (nodup_keys_fragments hfs hraw) (evaluates_fragments hfs h)⟩

theorem holds_filter_append (hraw : RawKeysDistinct (cs ++ [⟨.and, c⟩])) {f g : Document}
    (hf : filter s cs = .ok f) (hg : filter s [⟨.and, c⟩] = .ok g) :
    ∃ h, filter s (cs ++ [⟨.and, c⟩]) = .ok h ∧ ∀ doc, ClausesEvaluate s doc (cs ++ [⟨.and, c⟩]) →
      ∃ a b, Filter.holds doc f = .ok a ∧ Filter.holds doc g = .ok b ∧
        Filter.holds doc h = .ok (a && b) := by
  obtain ⟨fs, hfs, rfl⟩ := filter_eq_ok.mp hf
  obtain ⟨gs, hgs, rfl⟩ := filter_eq_ok.mp hg
  have happend := fragments_append hfs hgs
  obtain ⟨g, -, rfl⟩ := fragments_singleton hgs
  refine ⟨_, filter_eq_ok.mpr ⟨_, happend, rfl⟩, fun doc hev => ?_⟩
  exact holds_assemble_append (nodup_keys_fragments happend hraw) (evaluates_fragments happend hev)

theorem admits_of_append (hraw : RawKeysDistinct (cs ++ [⟨.and, c⟩])) {h : Document}
    (hh : filter s (cs ++ [⟨.and, c⟩]) = .ok h) (hdoc : Filter.holds doc h = .ok true) :
    Admits s cs doc ∧ Admits s [⟨.and, c⟩] doc := by
  obtain ⟨hs, hfragments, rfl⟩ := filter_eq_ok.mp hh
  obtain ⟨fs, gs, hfs, hgs, rfl⟩ := fragments_of_append hfragments
  obtain ⟨g, hg, rfl⟩ := fragments_singleton hgs
  obtain ⟨hleft, hright⟩ :=
    holds_of_assemble_append (nodup_keys_fragments hfragments hraw) hdoc
  exact ⟨⟨_, filter_eq_ok.mpr ⟨fs, hfs, rfl⟩, hleft⟩, ⟨_, filter_eq_ok.mpr ⟨_, hgs, rfl⟩, hright⟩⟩

theorem allLeaves_append (cs ds : List Clause) :
    allLeaves (cs ++ ds) = allLeaves cs ++ allLeaves ds := by
  induction cs with
  | nil => rw [allLeaves]; rfl
  | cons clause rest ih =>
    obtain ⟨join, c⟩ := clause
    rw [List.cons_append, allLeaves, ih, allLeaves, List.append_assoc]

theorem rawKeysDistinct_append (h : RawKeysDistinct cs) (hc : RawKeysDistinct [⟨.and, c⟩]) :
    RawKeysDistinct (cs ++ [⟨.and, c⟩]) := by
  intro f hf
  rw [allLeaves_append, List.mem_append] at hf
  exact hf.elim (h f) (hc f)

theorem holds_filter_narrowed (hraw : RawKeysDistinct cs) (hc : RawKeysDistinct [⟨.and, c⟩])
    {f g : Document} {admits : Document → Bool} (hf : filter s cs = .ok f)
    (hg : fragment s c = .ok g) (hholds : ∀ d, Filter.holds d g = .ok (admits d)) :
    ∃ h, filter s (cs ++ [⟨.and, c⟩]) = .ok h ∧ ∀ d, ClausesEvaluate s d cs →
      Filter.holds d h = .ok (Filter.passes d f && admits d) := by
  have hfragments : fragments s [⟨.and, c⟩] = .ok [(.and, g)] :=
    fragments_cons.mpr ⟨g, [], hg, rfl, rfl⟩
  obtain ⟨h, hh, happend⟩ := holds_filter_append (rawKeysDistinct_append hraw hc) hf
    (filter_eq_ok.mpr ⟨_, hfragments, rfl⟩)
  refine ⟨h, hh, fun d hev => ?_⟩
  have hboth : ClausesEvaluate s d (cs ++ [⟨.and, c⟩]) := by
    intro clause hmem k hk
    rcases List.mem_append.mp hmem with hmem | hmem
    · exact hev clause hmem k hk
    · rw [List.mem_singleton.mp hmem, hg] at hk
      rw [← Except.ok.inj hk]
      exact ⟨_, hholds d⟩
  obtain ⟨a, b, ha, hb, hab⟩ := happend d hboth
  have hkeys := nodup_keys_fragments hfragments hc (.and, g) (List.mem_singleton_self _)
  rw [hab, Filter.passes_of_holds d ha]
  rw [← Except.ok.inj ((holds_merge_nil hkeys (hholds d)).symm.trans hb)]

theorem rawKeysDistinct_compare (column operator : String) (l : Literal) (negated : Bool) :
    RawKeysDistinct [⟨.and, .compare column operator l negated⟩] := by
  simp [RawKeysDistinct, allLeaves, leaves]

theorem rawKeysDistinct_incrementable (column : String) :
    RawKeysDistinct [⟨.and, (Mutation.incrementable column).condition⟩] := by
  simp [RawKeysDistinct, allLeaves, leaves, Mutation.incrementable, Plan.filter, Plan.orFilter,
    Plan.addClause, Plan.empty]

end RelDoc.Scope

namespace RelDoc.Query

open Scope

variable {q : Query}

def Narrowed (q : Query) (c : Condition) (d : Document) : Prop :=
  Admits q.settings q.plan.clauses d ∧ Admits q.settings [⟨.and, c⟩] d

theorem guard_incrementBy {column : String} {amount : Value} {extra : Option Literal}
    {m : Mutation} (h : Mutation.incrementBy column amount extra = .ok m) :
    m.guard = some (Mutation.incrementable column) := by
  unfold Mutation.incrementBy at h
  cases extra with
  | none => obtain rfl := Except.ok.inj h; rfl
  | some l =>
    simp only at h
    rcases hc : Mutation.columns "increment extra columns" l with e | d
    · rw [hc] at h; exact absurd h (by simp [bind, Except.bind])
    · rw [hc] at h
      obtain rfl := Except.ok.inj h
      rfl

theorem scopeWithin_append {q' : Query} {c : Condition} (hs : q'.settings = q.settings)
    (hc : q'.plan.clauses = q.plan.clauses ++ [⟨.and, c⟩])
    (hraw : RawKeysDistinct (q.plan.clauses ++ [⟨.and, c⟩])) : q'.ScopeWithin (q.Narrowed c) := by
  intro f hf d hd
  rw [hs, hc] at hf
  exact admits_of_append hraw hf hd

theorem guard_increment {column : String} {l : Literal} {extra : Option Literal} {m : Mutation}
    (h : Mutation.increment column l extra = .ok m) :
    m.guard = some (Mutation.incrementable column) := by
  unfold Mutation.increment at h
  rcases ha : Mutation.amount l with e | a
  · rw [ha] at h; exact absurd h (by simp [bind, Except.bind])
  · rw [ha] at h; exact guard_incrementBy h

theorem guard_decrement {column : String} {l : Literal} {extra : Option Literal} {m : Mutation}
    (h : Mutation.decrement column l extra = .ok m) :
    m.guard = some (Mutation.incrementable column) := by
  unfold Mutation.decrement at h
  rcases ha : Mutation.amount l with e | a
  · rw [ha] at h; exact absurd h (by simp [bind, Except.bind])
  · rcases hn : Mutation.negated a with e | n
    · rw [ha] at h; simp only [bind, Except.bind, hn] at h; exact absurd h (by simp)
    · rw [ha] at h; simp only [bind, Except.bind, hn] at h; exact guard_incrementBy h

theorem guarded_changesOnly (hraw : RawKeysDistinct q.plan.clauses) {column : String}
    {mutation : Except QueryError Mutation}
    (h : ∀ m, mutation = .ok m → m.guard = some (Mutation.incrementable column)) :
    (Request.after mutation q.mutate).ChangesOnly
      (q.Narrowed (Mutation.incrementable column).condition) := by
  cases mutation with
  | error e => exact Request.changesOnly_settled _ _
  | ok m =>
    apply mutate_changesOnly m
    intro f hf d hd
    rw [h m rfl] at hf
    exact admits_of_append
      (rawKeysDistinct_append hraw (rawKeysDistinct_incrementable column)) hf hd

theorem appended_clause_narrows (q : Query) (hraw : RawKeysDistinct q.plan.clauses) :
    (∀ c, RawKeysDistinct [⟨.and, c⟩] → ∀ f g, filter q.settings q.plan.clauses = .ok f →
      filter q.settings [⟨.and, c⟩] = .ok g →
      ∃ h, filter q.settings (q.plan.clauses ++ [⟨.and, c⟩]) = .ok h ∧
        ∀ doc, ClausesEvaluate q.settings doc (q.plan.clauses ++ [⟨.and, c⟩]) →
          ∃ a b, Filter.holds doc f = .ok a ∧ Filter.holds doc g = .ok b ∧
            Filter.holds doc h = .ok (a && b)) ∧
    (∀ id, (q.find id).ReadsOnly (q.Narrowed (.compare q.settings.idField "=" id false)) ∧
      (q.deleteId id).DeletesOnly (q.Narrowed (.compare q.settings.idField "=" id false))) ∧
    (∀ size last column, (q.scope (·.pageAfter size last column)).get.ReadsOnly fun d =>
      if Plan.isNull last then Admits q.settings q.plan.clauses d
      else q.Narrowed (.compare column ">" last false) d) ∧
    ∀ column amount extra,
      (q.increment column amount extra).ChangesOnly
        (q.Narrowed (Mutation.incrementable column).condition) ∧
      (q.decrement column amount extra).ChangesOnly
        (q.Narrowed (Mutation.incrementable column).condition) := by
  have hcompare (column operator : String) (l : Literal) :=
    rawKeysDistinct_append hraw (rawKeysDistinct_compare column operator l false)
  refine ⟨?_, ?_, ?_, ?_⟩
  · intro c hc f g hf hg
    exact holds_filter_append (rawKeysDistinct_append hraw hc) hf hg
  · intro id
    have hid : (q.withId id).ScopeWithin (q.Narrowed (.compare q.settings.idField "=" id false)) :=
      scopeWithin_append rfl rfl (hcompare _ _ id)
    exact ⟨first_readsOnly hid, delete_deletesOnly hid⟩
  · intro size last column
    rcases hlast : Plan.isNull last with _ | _
    · refine get_readsOnly (scopeWithin_append rfl ?_ (hcompare column ">" last))
      simp [scope, Plan.pageAfter, hlast, Plan.limitedTo, Plan.orderBy, Plan.filter, Plan.addClause]
    · refine get_readsOnly fun f hf d hd => ⟨f, ?_, hd⟩
      simpa [scope, Plan.pageAfter, hlast, Plan.limitedTo, Plan.orderBy] using hf
  · intro column amount extra
    exact ⟨guarded_changesOnly hraw fun m hm => guard_increment hm,
      guarded_changesOnly hraw fun m hm => guard_decrement hm⟩

theorem appended_clause_narrows_deleteId :
    let clauses : List Clause := [⟨.and, .compare "city" "=" (.string "Paris") false⟩,
      ⟨.or, .raw [("name", .string "Ada")]⟩]
    let q : Query := ⟨{ Plan.empty with clauses := clauses }, .standard, []⟩
    RawKeysDistinct clauses ∧
      (q.deleteId (.string "7")).DeletesOnly (q.Narrowed (.compare "_id" "=" (.string "7") false)) := by
  intro clauses q
  have hraw : RawKeysDistinct clauses := by
    simp [clauses, RawKeysDistinct, allLeaves, leaves, Document.keys]
  obtain ⟨-, hid, -⟩ := appended_clause_narrows q hraw
  exact ⟨hraw, (hid (.string "7")).2⟩

end RelDoc.Query
