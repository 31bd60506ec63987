import RelDoc.Proofs.CompletedUpdates
import RelDoc.Proofs.EqualityClauses
import RelDoc.Proofs.FieldUpdates
import RelDoc.Proofs.KeyOrder
import RelDoc.Proofs.UnderstoodClauses
import RelDoc.Query.Basic

namespace RelDoc

namespace Document

variable {p : List String}

theorem reach_of_structEq (hp : p ≠ []) {v : Value} {d : Document}
    (h : structEq (setAt p v d) d = true) :
    ∃ w, (Value.document d).reach p = [w] ∧ v.structEq w = true := by
  induction p generalizing d with
  | nil => exact absurd rfl hp
  | cons key rest ih =>
    obtain ⟨-, hfields⟩ := Value.structEq_document.mp h
    by_cases hrest : rest = []
    · subst hrest
      obtain ⟨w, hw, heq⟩ := hfields (key, v) (mem_of_get? (get?_insert d key v))
      refine ⟨w, ?_, heq⟩
      rw [Value.reach_document, hw]
      rfl
    · rw [setAt_cons key hrest] at hfields
      obtain ⟨w, hw, heq⟩ := hfields _ (mem_of_get? (get?_insert d key _))
      obtain ⟨inner, rfl⟩ := Value.eq_document_of_rank (Value.rank_of_structEq heq).symm
      have hbelow : d.below key = inner := by rw [below, hw]
      rw [hbelow] at heq
      obtain ⟨w, hreach, hv⟩ := ih hrest heq
      refine ⟨w, ?_, hv⟩
      rw [Value.reach_document, hw, ← hreach]
      exact List.flatMap_singleton _ _

theorem lookup_of_structEq {path : String} {v : Value} {d : Document}
    (h : structEq (d.set path v) d = true) : ∃ w, d.lookup path = [w] ∧ v.structEq w = true :=
  reach_of_structEq (Path.segments_ne_nil path) h

/-- The value at a path is the same as `v`, as is the whole document, but has its fields in another
order. -/
def HeldReordered (path : String) (v : Value) (d : Document) : Prop :=
  structEq (d.set path v) d = true ∧ ∃ w, d.lookup path = [w] ∧ v.structEq w = true ∧
    w.looseEq v = false ∧ (v.keysDistinct = true → v.sameOrder w = false)

theorem heldReordered_iff {path : String} {v w : Value} {d : Document}
    (hsame : structEq (d.set path v) d = true) (hw : d.lookup path = [w])
    (hvw : v.structEq w = true) : d.HeldReordered path v ↔ w.looseEq v = false := by
  constructor
  · rintro ⟨-, u, hu, -, hloose, -⟩
    rw [hw] at hu
    obtain ⟨rfl, -⟩ := List.cons.inj hu
    exact hloose
  · intro hloose
    refine ⟨hsame, w, hw, hvw, hloose, fun hkeys => ?_⟩
    rw [← Bool.not_eq_true, ← Value.looseEq_iff_sameOrder hkeys hvw]
    intro h
    rw [Value.looseEq_symm h] at hloose
    cases hloose

end Document

namespace Filter

variable {v : Value}

theorem isOperand_of_isOrdinary (hv : v.isOrdinary = true) : v.isOperand = true := by
  cases v with
  | regex pattern options => cases hv
  | document fields => exact (Bool.and_eq_true_iff.mp hv).1
  | _ => rfl

theorem equalsAny_ordinary (hv : v.isOrdinary = true) (reached : List Value) :
    ∃ b, equalsAny reached v = .ok b ∧ (b = true ↔ EqualIn v reached) := by
  apply equalsAny_equalIn
  rintro pattern options rfl
  simp [Value.isOrdinary] at hv

theorem equalIn_of_structEq {w : Value} (h : v.structEq w = true) :
    EqualIn v [w] ↔ w.looseEq v = true := by
  constructor
  · rintro (⟨u, hu, hloose | ⟨items, rfl, x, hx, hloose⟩⟩ | ⟨hnil, -⟩)
    · obtain rfl := List.mem_singleton.mp hu
      exact hloose
    · obtain rfl := List.mem_singleton.mp hu
      obtain ⟨vs, rfl⟩ := Value.eq_array_of_rank (Value.rank_of_structEq h)
      obtain ⟨i, hi⟩ := List.getElem?_of_mem hx
      rw [Value.structEq_array] at h
      obtain ⟨v, hv, hvx⟩ := Value.forall₂_getElem? h hi
      rw [Value.looseEq_array_of_element hv hvx] at hloose
      cases hloose
    · cases hnil
  · intro hloose
    exact Or.inl ⟨w, List.mem_singleton_self w, Or.inl hloose⟩

end Filter

namespace Query

open RelDoc.Filter Collection Document

variable {column : String} {l : Literal} {p : Plan}

theorem settled_set {v : Value} {scope d : Document} (hpass : passes d scope = true) :
    settled scope [("$set", .document [(column, v)])] d =
      if Document.structEq (d.set column v) d then d else d.set column v := by
  have happlied : Update.applied [("$set", .document [(column, v)])] d =
      .ok (d.set column v, !Document.structEq (d.set column v) d) := rfl
  rw [settled_of_passes hpass happlied]
  cases Document.structEq (d.set column v) d <;> rfl

theorem read_back {v : Value} (hcolumn : isOperator column = false) (hv : v.isOrdinary = true)
    {scope d : Document} (hpass : passes d scope = true) :
    ∃ b, holds (settled scope [("$set", .document [(column, v)])] d) [(column, v)] = .ok b ∧
      (b = true ↔ ¬d.HeldReordered column v) := by
  rw [settled_set hpass, holds_column _ hcolumn,
    conditionHolds_of_isOperand (isOperand_of_isOrdinary hv)]
  obtain ⟨b, hb, hbiff⟩ := equalsAny_ordinary hv
    ((if Document.structEq (d.set column v) d then d else d.set column v).lookup column)
  refine ⟨b, hb, hbiff.trans ?_⟩
  rcases hsame : Document.structEq (d.set column v) d with _ | _
  · change EqualIn v ((d.set column v).lookup column) ↔ _
    rw [lookup_set]
    apply iff_of_true
    · exact Or.inl ⟨v, List.mem_singleton_self v, Or.inl (Value.looseEq_self hv)⟩
    · rintro ⟨hsame', -⟩
      rw [hsame] at hsame'
      cases hsame'
  · obtain ⟨w, hw, hvw⟩ := lookup_of_structEq hsame
    change EqualIn v (d.lookup column) ↔ _
    rw [hw, equalIn_of_structEq hvw, heldReordered_iff hsame hw hvw, Bool.not_eq_false]

theorem update_map (q : Query) (hcolumn : isOperator column = false) :
    q.update (.map [(column, l)]) =
      q.mutate ⟨[("$set", .document [(column, l.toValue)])], none⟩ := by
  have hany : ([(column, l.toValue)] : Document).any (fun field => isOperator field.1) = false := by
    rw [List.any_cons, hcolumn]
    rfl
  have hmutation : Mutation.update (.map [(column, l)]) =
      .ok ⟨[("$set", .document [(column, l.toValue)])], none⟩ := by
    change Except.ok (Mutation.mk (if ([(column, l.toValue)] : Document).any
      (fun field => isOperator field.1) then _ else _) none) = _
    rw [hany]
    rfl
  rw [update, hmutation]
  rfl

theorem run_mutate {q : Query} {mutation : Mutation} {scope : Document}
    (hscope : Scope.filter q.settings (q.plan.clauses ++ mutation.guard.toList) = .ok scope)
    (m : Metered) :
    ((q.mutate mutation).run m).1 = ((m.collection.run (.update scope mutation.operations
        (Mutation.options q.settings q.writeOptions))).1.map UpdateReport.affected).mapError .store ∧
      ((q.mutate mutation).run m).2.collection = (m.collection.run (.update scope
        mutation.operations (Mutation.options q.settings q.writeOptions))).2 := by
  rw [mutate, hscope]
  exact ⟨rfl, rfl⟩

theorem run_mutate_ok {q : Query} {mutation : Mutation} {m : Metered} {n : Nat}
    (h : ((q.mutate mutation).run m).1 = .ok n) : ∃ scope report,
      Scope.filter q.settings (q.plan.clauses ++ mutation.guard.toList) = .ok scope ∧
        (m.collection.run (.update scope mutation.operations
          (Mutation.options q.settings q.writeOptions))).1 = .ok report ∧
        ((q.mutate mutation).run m).2.collection = (m.collection.run (.update scope
          mutation.operations (Mutation.options q.settings q.writeOptions))).2 := by
  rcases hscope : Scope.filter q.settings (q.plan.clauses ++ mutation.guard.toList) with e | scope
  · rw [mutate, hscope] at h
    cases h
  · obtain ⟨hanswer, hafter⟩ := run_mutate hscope m
    rw [hanswer] at h
    rcases hreport : (m.collection.run (.update scope mutation.operations
      (Mutation.options q.settings q.writeOptions))).1 with e | report
    · rw [hreport] at h
      cases h
    · exact ⟨scope, report, rfl, hreport, hafter⟩

theorem run_mutate_settles {mutation : Mutation} {m : Metered} {n : Nat}
    (h : ((mutate ⟨p, .standard, []⟩ mutation).run m).1 = .ok n) :
    m.collection.online = true ∧ ∃ scope,
      Scope.filter .standard (p.clauses ++ mutation.guard.toList) = .ok scope ∧
        (∀ d ∈ m.collection.documents, Accepts scope mutation.operations d) ∧
        ((mutate ⟨p, .standard, []⟩ mutation).run m).2.collection.documents =
          m.collection.documents.map (settled scope mutation.operations) := by
  obtain ⟨scope, report, hscope, hreport, hafter⟩ := run_mutate_ok h
  have honline : m.collection.online = true := online_of_run_ok hreport
  obtain ⟨haccepts, hdocuments, -⟩ := run_update_ok honline rfl rfl hreport
  refine ⟨honline, scope, hscope, haccepts, ?_⟩
  rw [hafter, hdocuments]

/-- After an update of one column that succeeds, a document that was in scope is found by the value
that was set, unless it was left alone for holding the same value in another order; and a document out
of scope is as it was. -/
theorem update_read_back (hcolumn : isOperator column = false)
    (hid : column ≠ Settings.standard.idField) (hl : l.toValue.isOrdinary = true) {m : Metered}
    {n : Nat} (h : ((update ⟨p, .standard, []⟩ (.map [(column, l)])).run m).1 = .ok n) :
    ∃ scope equal, Scope.filter .standard p.clauses = .ok scope ∧
      Scope.filter .standard [⟨.and, .compare column "=" l false⟩] = .ok equal ∧
      List.Forall₂ (fun d after =>
          holds d scope = .ok false ∧ after = d ∨
          holds d scope = .ok true ∧ (d.HeldReordered column l.toValue → after = d) ∧
            ∃ b, holds after equal = .ok b ∧ (b = true ↔ ¬d.HeldReordered column l.toValue))
        m.collection.documents
        ((update ⟨p, .standard, []⟩ (.map [(column, l)])).run m).2.collection.documents := by
  rw [update_map _ hcolumn] at h ⊢
  obtain ⟨-, scope, hscope, haccepts, hdocuments⟩ := run_mutate_settles h
  rw [Option.toList_none, List.append_nil] at hscope
  refine ⟨scope, _, hscope, Scope.filter_equality hcolumn hid, ?_⟩
  rw [hdocuments, List.forall₂_map_right_iff, List.forall₂_same]
  intro d hd
  obtain ⟨hevaluates, -⟩ := haccepts d hd
  rw [holds_eq_passes d hevaluates]
  rcases hpass : passes d scope with _ | _
  · exact Or.inl ⟨rfl, settled_of_not_passes hpass⟩
  · refine Or.inr ⟨rfl, ?_, read_back hcolumn hl hpass⟩
    rintro ⟨hsame, -⟩
    rw [settled_set hpass, if_pos hsame]

theorem update_read_back_reordered :
    let l : Literal := .map [("y", .integer 2), ("x", .integer 1)]
    let first : Document := [("_id", .int32 1), ("at", .document [("x", .int32 1), ("y", .int32 2)])]
    let second : Document := [("_id", .int32 2), ("at", .int32 5)]
    let m : Metered :=
      .ofCollection { Collection.empty "places" true with documents := [first, second] }
    let result := (update ⟨.empty, .standard, []⟩ (.map [("at", l)])).run m
    isOperator "at" = false ∧ "at" ≠ Settings.standard.idField ∧ l.toValue.isOrdinary = true ∧
      result.1 = .ok 1 ∧ ∃ equal moved,
        Scope.filter .standard [⟨.and, .compare "at" "=" l false⟩] = .ok equal ∧
          result.2.collection.documents = [first, moved] ∧
          holds first equal = .ok false ∧ holds moved equal = .ok true := by
  intro l first second m result
  have hcolumn : isOperator "at" = false := by decide
  have hid : "at" ≠ Settings.standard.idField := by decide
  have hl : l.toValue.isOrdinary = true := by decide
  have hok : result.1 = .ok 1 := by decide +kernel
  have hreordered : first.HeldReordered "at" l.toValue := by
    have hlookup : first.lookup "at" = [.document [("x", .int32 1), ("y", .int32 2)]] := rfl
    rw [heldReordered_iff (by decide +kernel) hlookup (by decide +kernel)]
    rfl
  have hother : ¬second.HeldReordered "at" l.toValue := by
    rintro ⟨hsame, -⟩
    exact absurd hsame (by decide +kernel)
  obtain ⟨scope, equal, hscope, hequal, hdocs⟩ := update_read_back hcolumn hid hl hok
  obtain rfl : [] = scope := Except.ok.inj hscope
  refine ⟨hcolumn, hid, hl, hok, equal, ?_⟩
  obtain ⟨kept, rest, hfirst, hrest, hafter⟩ := List.forall₂_cons_left_iff.mp hdocs
  obtain ⟨moved, rest, hsecond, hnil, rfl⟩ := List.forall₂_cons_left_iff.mp hrest
  obtain rfl := List.forall₂_nil_left_iff.mp hnil
  rcases hfirst with ⟨hout, -⟩ | ⟨-, hkept, b, hb, hbiff⟩
  · rw [holds_nil] at hout
    cases hout
  · rcases hsecond with ⟨hout, -⟩ | ⟨-, -, b', hb', hbiff'⟩
    · rw [holds_nil] at hout
      cases hout
    · obtain rfl := hkept hreordered
      obtain rfl : b = false := by
        rw [← Bool.not_eq_true, hbiff]
        exact not_not_intro hreordered
      obtain rfl : b' = true := hbiff'.mpr hother
      exact ⟨moved, hequal, hafter, hb, hb'⟩

end Query

end RelDoc
