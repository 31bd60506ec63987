import RelDoc.Proofs.RemovedPaths
import RelDoc.Proofs.UpdateReadBack

namespace RelDoc

open RelDoc.Path Document

theorem Update.editAll_unset (columns : List String) (d : Document) :
    editAll "$unset" (columns.map fun c => (c, .int32 1)) d = (d.removeEach columns, .ok ()) := by
  induction columns generalizing d with
  | nil => rfl
  | cons c rest ih => exact ih (d.remove c)

theorem Mutation.applied_drop (columns : List String) : ∃ named : List String,
    (∀ c, c ∈ named ↔ c ∈ columns) ∧ ∀ d : Document,
      Update.applied (drop columns).operations d =
        .ok (d.removeEach named, !structEq (d.removeEach named) d) := by
  obtain ⟨named, hnamed, hfields⟩ := ofFields_map columns
  refine ⟨named, hnamed, fun d => ?_⟩
  rw [drop, single, hfields fun _ => .int32 1, Update.applied, Update.apply, Update.run,
    Update.editAll_unset]
  rfl

namespace Query

open RelDoc.Filter Collection

variable {p : Plan} {columns : List String}

theorem settled_drop {scope d : Document} (hpass : passes d scope = true) :
    Without columns (settled scope (Mutation.drop columns).operations d) d := by
  obtain ⟨named, hnamed, happlied⟩ := Mutation.applied_drop columns
  apply Without.of_mem_iff _ hnamed
  rw [settled_of_passes hpass (happlied d)]
  rcases hsame : structEq (d.removeEach named) d with _ | _
  · exact without_removeEach named d
  · exact without_of_structEq hsame

theorem accepts_drop {scope d : Document} (h : Evaluates d scope) :
    Accepts scope (Mutation.drop columns).operations d := by
  obtain ⟨named, -, happlied⟩ := Mutation.applied_drop columns
  exact ⟨h, fun _ => ⟨_, happlied d⟩⟩

theorem clauses_drop (p : Plan) (columns : List String) :
    p.clauses ++ (Mutation.drop columns).guard.toList = p.clauses := List.append_nil _

theorem run_drop_ok_iff (p : Plan) (columns : List String) (m : Metered) :
    (∃ n, ((drop ⟨p, .standard, []⟩ columns).run m).1 = .ok n) ↔
      m.collection.online = true ∧ ∃ scope, Scope.filter .standard p.clauses = .ok scope ∧
        ∀ d ∈ m.collection.documents, Evaluates d scope := by
  constructor
  · rintro ⟨n, h⟩
    obtain ⟨honline, scope, hscope, haccepts, -⟩ := run_mutate_settles h
    rw [clauses_drop] at hscope
    exact ⟨honline, scope, hscope, fun d hd => (haccepts d hd).1⟩
  · rintro ⟨honline, scope, hscope, hevaluate⟩
    have haccepts : ∀ d ∈ m.collection.documents,
        Accepts scope (Mutation.drop columns).operations d :=
      fun d hd => accepts_drop (hevaluate d hd)
    obtain ⟨report, hreport⟩ : ∃ report, (m.collection.run (.update scope
        (Mutation.drop columns).operations (Mutation.options .standard []))).1 = .ok report :=
      run_update_of_accepts honline rfl rfl haccepts
    have hanswer := (run_mutate (q := ⟨p, .standard, []⟩)
      ((congrArg _ (clauses_drop p columns)).trans hscope) m).1
    refine ⟨report.affected, hanswer.trans ?_⟩
    rw [hreport]
    rfl

/-- Columns are dropped exactly if the store can be reached and the scope can be evaluated. Then
documents out of scope are as before; and in those in scope a dropped column reads as missing, unless it
reaches into an array that stays, and columns apart from all dropped ones read as before. -/
theorem dropped_columns (p : Plan) (columns : List String) (m : Metered) :
    let result := (drop ⟨p, .standard, []⟩ columns).run m
    ((∃ n, result.1 = .ok n) ↔ m.collection.online = true ∧ ∃ scope,
      Scope.filter .standard p.clauses = .ok scope ∧
        ∀ d ∈ m.collection.documents, Evaluates d scope) ∧
    ∀ n, result.1 = .ok n → ∃ scope, Scope.filter .standard p.clauses = .ok scope ∧
      List.Forall₂ (fun d after =>
          holds d scope = .ok false ∧ after = d ∨
          holds d scope = .ok true ∧
            (∀ c ∈ columns, after.lookup c = [] ↔ ¬d.HeldInArray columns c) ∧
            ∀ other, (∀ c ∈ columns, Apart (segments c) (segments other)) →
              after.lookup other = d.lookup other)
        m.collection.documents result.2.collection.documents := by
  intro result
  refine ⟨run_drop_ok_iff p columns m, fun n h => ?_⟩
  obtain ⟨-, scope, hscope, haccepts, hdocuments⟩ := run_mutate_settles h
  rw [clauses_drop] at hscope
  refine ⟨scope, hscope, ?_⟩
  change List.Forall₂ _ _ ((mutate _ _).run m).2.collection.documents
  rw [hdocuments, List.forall₂_map_right_iff, List.forall₂_same]
  intro d hd
  rw [holds_eq_passes d (haccepts d hd).1]
  rcases hpass : passes d scope with _ | _
  · exact Or.inl ⟨rfl, settled_of_not_passes hpass⟩
  · have hwithout : Without columns (settled scope (Mutation.drop columns).operations d) d :=
      settled_drop hpass
    exact Or.inr ⟨rfl, fun c hc => hwithout.lookup_eq_nil_iff hc, hwithout.others⟩

theorem dropped_columns_prices :
    let item (price : Int32) : Value := .document [("price", .int32 price)]
    let ada : Document := [("_id", .int32 1), ("items", .array [item 5, item 12])]
    let bob : Document := [("_id", .int32 2), ("items", item 9)]
    let m : Metered :=
      .ofCollection { Collection.empty "orders" true with documents := [ada, bob] }
    let result := (drop ⟨.empty, .standard, []⟩ ["items.price"]).run m
    result.1 = .ok 1 ∧ ada.HeldInArray ["items.price"] "items.price" ∧
      ∃ ada' bob', result.2.collection.documents = [ada', bob'] ∧
        ada'.lookup "items.price" ≠ [] ∧ bob'.lookup "items.price" = [] ∧
        bob'.lookup "_id" = [.int32 2] := by
  intro item ada bob m result
  have hok : result.1 = .ok 1 := by decide +kernel
  have hheld : ada.HeldInArray ["items.price"] "items.price" := by
    refine ⟨["items"], ["price"], [item 5, item 12], by decide, rfl, by decide, ?_⟩
    decide
  have hfree : ¬bob.HeldInArray ["items.price"] "items.price" := by
    have hleads : LeadsTo (.int32 9) (segments "items.price") bob := ⟨_, rfl, rfl⟩
    exact hleads.not_heldInArray (List.mem_singleton_self _)
  obtain ⟨-, heffect⟩ := dropped_columns .empty ["items.price"] m
  obtain ⟨scope, hscope, hdocs⟩ := heffect 1 hok
  obtain rfl : [] = scope := Except.ok.inj hscope
  obtain ⟨ada', rest, hada, hrest, hafter⟩ := List.forall₂_cons_left_iff.mp hdocs
  obtain ⟨bob', rest, hbob, hnil, rfl⟩ := List.forall₂_cons_left_iff.mp hrest
  obtain rfl := List.forall₂_nil_left_iff.mp hnil
  rcases hada with ⟨hout, -⟩ | ⟨-, hada, -⟩
  · rw [holds_nil] at hout
    cases hout
  · rcases hbob with ⟨hout, -⟩ | ⟨-, hbob, hothers⟩
    · rw [holds_nil] at hout
      cases hout
    · refine ⟨hok, hheld, ada', bob', hafter, ?_, (hbob _ (by simp)).mpr hfree, ?_⟩
      · rw [Ne, hada _ (by simp), not_not]
        exact hheld
      · refine (hothers "_id" fun c hc => ?_).trans rfl
        obtain rfl := List.mem_singleton.mp hc
        constructor <;> decide

end Query

end RelDoc
