import RelDoc.Proofs.IntegerColumns
import RelDoc.Proofs.ScopeNarrowing
import RelDoc.Proofs.UpdateReadBack

namespace RelDoc

namespace Value

def integer? : Value → Option Int
  | .int32 n => some n.toInt
  | .int64 n => some n.toInt
  | _ => none

def Fits (i : Int) : Prop := -2 ^ 63 ≤ i ∧ i < 2 ^ 63

variable {v w : Value} {i j : Int}

theorem integer?_ofInt64 (n : Int64) : (ofInt64 n).integer? = some n.toInt := by
  rcases ofInt64_eq n with ⟨m, hm, heq⟩ | heq
  · rw [heq, integer?, hm]
  · rw [heq, integer?]

theorem cases_of_integer? (h : v.integer? = some i) :
    (∃ n : Int32, v = .int32 n ∧ n.toInt = i) ∨ ∃ n : Int64, v = .int64 n ∧ n.toInt = i := by
  cases v with
  | int32 n => exact Or.inl ⟨n, rfl, Option.some.inj h⟩
  | int64 n => exact Or.inr ⟨n, rfl, Option.some.inj h⟩
  | _ => cases h

theorem toInt_add_of_fits {m n : Int64} (h : Fits (m.toInt + n.toInt)) :
    (m + n).toInt = m.toInt + n.toInt := by
  obtain ⟨hlo, hhi⟩ := h
  rw [Int64.toInt_add]
  apply Int.bmod_eq_of_le <;> omega

theorem add?_integers (hv : v.integer? = some i) (hw : w.integer? = some j) (h : Fits (i + j)) :
    ∃ sum, Update.add? v w = some sum ∧ sum.integer? = some (i + j) := by
  rcases cases_of_integer? hv with ⟨m, rfl, rfl⟩ | ⟨m, rfl, rfl⟩
  · rcases cases_of_integer? hw with ⟨n, rfl, rfl⟩ | ⟨n, rfl, rfl⟩
    · refine ⟨_, rfl, ?_⟩
      obtain ⟨hlo, hhi⟩ := h
      split
      · rw [integer?, Int32.toInt_ofInt_of_le (by omega) (by omega)]
      · rw [integer?, Int64.toInt_ofInt_of_le hlo hhi]
    · refine ⟨_, rfl, ?_⟩
      rw [← Int32.toInt_toInt64] at h ⊢
      rw [integer?, toInt_add_of_fits h]
  · rcases cases_of_integer? hw with ⟨n, rfl, rfl⟩ | ⟨n, rfl, rfl⟩
    · refine ⟨_, rfl, ?_⟩
      rw [← Int32.toInt_toInt64] at h ⊢
      rw [integer?, toInt_add_of_fits h]
    · exact ⟨_, rfl, congrArg some (toInt_add_of_fits h)⟩

theorem eq_of_structEq_integer (hv : v.integer? = some i) (h : v.structEq w = true) : w = v := by
  rcases cases_of_integer? hv with ⟨n, rfl, -⟩ | ⟨n, rfl, -⟩
  all_goals
    cases w <;> simp [structEq] at h
    rw [h]

end Value

namespace Document

variable {d : Document} {column : String}

theorem insert_of_structEq {v : Value} {i : Int} (hv : v.integer? = some i)
    (h : structEq (d.insert column v) d = true) : d.insert column v = d := by
  obtain ⟨-, hfields⟩ := Value.structEq_document.mp h
  obtain ⟨w, hw, heq⟩ := hfields (column, v) (mem_of_get? (get?_insert d column v))
  rw [Value.eq_of_structEq_integer hv heq] at hw
  exact insert_get? d column v hw

theorem erase_insert (d : Document) (column : String) (v : Value) :
    (d.insert column v).erase column = d.erase column := by
  induction d with
  | nil => rw [insert, erase_cons, if_pos rfl]
  | cons field rest ih =>
    obtain ⟨k, w⟩ := field
    by_cases hk : k = column
    · rw [insert, if_pos hk, erase_cons, erase_cons, if_pos rfl, if_pos hk]
    · rw [insert, if_neg hk, erase_cons, erase_cons, if_neg hk, if_neg hk, ih]

inductive Incremented (column : String) (n : Int64) (d : Document) : Document → Prop
  | absent (hd : d.get? column = none) :
      Incremented column n d (d.insert column (Value.ofInt64 n))
  | null (hd : d.get? column = some .null) : Incremented column n d d
  | added {v w : Value} {i : Int} (hd : d.get? column = some v) (hv : v.integer? = some i)
      (hw : w.integer? = some (i + n.toInt)) : Incremented column n d (d.insert column w)

theorem Incremented.erase_eq {n : Int64} {after : Document} (h : Incremented column n d after) :
    after.erase column = d.erase column := by
  cases h with
  | absent _ => exact erase_insert d column _
  | null _ => rfl
  | added _ _ _ => exact erase_insert d column _

def CanIncrement (column : String) (n : Int64) (d : Document) : Prop :=
  ∀ v, d.get? column = some v → v = .null ∨ ∃ i, v.integer? = some i ∧ Value.Fits (i + n.toInt)

end Document

namespace Scope

variable {s : Settings} {column : String}

def incrementable (reached : List Value) : Bool :=
  reached.isEmpty || !Filter.anyValue (·.looseEq .null) reached

theorem fragment_missing (s : Settings) (column : String) :
    fragment s (.compare column "exists" (.boolean false) false) =
      .ok (under column (.document (under "$exists" (.boolean false)))) := by
  have hprepare : prepare s column (.boolean false) = .boolean false := by
    rw [prepare]
    split <;> rfl
  rw [fragment, compareFragment_eq_ok]
  refine ⟨.structural "exists", .boolean false, rfl, ?_, rfl⟩
  rw [hprepare]
  rfl

theorem holds_missing (hcolumn : isOperator column = false) (d : Document) :
    Filter.holds d (under column (.document (under "$exists" (.boolean false)))) =
      .ok (d.lookup column).isEmpty := by
  rw [under, Filter.holds_column d hcolumn]
  refine (Filter.conditionHolds_operator rfl (by decide) (by decide) _ _).trans ?_
  change Except.ok ((d.lookup column).isEmpty != false) = _
  rw [Bool.bne_false]

theorem holds_not_null (hcolumn : isOperator column = false) (d : Document) :
    Filter.holds d (under column (.document (under "$ne" .null))) =
      .ok (!(d.lookup column).isEmpty && !Filter.anyValue (·.looseEq .null) (d.lookup column)) := by
  rw [under, Filter.holds_column d hcolumn]
  refine (Filter.conditionHolds_operator rfl (by decide) (by decide) _ _).trans ?_
  change (Filter.equalsAny (d.lookup column) .null).map (!·) = _
  cases d.lookup column <;> rfl

theorem fragments_incrementable (s : Settings) (column : String) :
    fragments s [⟨.and, .compare column "exists" (.boolean false) false⟩, ⟨.or, .notNull column⟩] =
      .ok [(.and, under column (.document (under "$exists" (.boolean false)))),
        (.or, under column (.document (under "$ne" .null)))] := by
  rw [fragments, fragment_missing]
  rfl

theorem fragment_incrementable (s : Settings) (column : String) :
    fragment s (Mutation.incrementable column).condition =
      .ok (under "$or" (.array [
        .document (under column (.document (under "$exists" (.boolean false)))),
        .document (under column (.document (under "$ne" .null)))])) :=
  (fragment_nested s _).trans (filter_eq_ok.mpr ⟨_, fragments_incrementable s column, rfl⟩)

theorem holds_incrementable (hcolumn : isOperator column = false) :
    ∃ f, fragment s (Mutation.incrementable column).condition = .ok f ∧
      ∀ d, Filter.holds d f = .ok (incrementable (d.lookup column)) := by
  let clauses : List Clause := [⟨.and, .compare column "exists" (.boolean false) false⟩,
    ⟨.or, .notNull column⟩]
  have hfragments := fragments_incrementable s column
  have hraw : RawKeysDistinct clauses := by simp [clauses, RawKeysDistinct, allLeaves, leaves]
  refine ⟨_, (fragment_nested s _).trans (filter_eq_ok.mpr ⟨_, hfragments, rfl⟩), fun d => ?_⟩
  have hmissing := holds_missing hcolumn d
  have hnull := holds_not_null hcolumn d
  rw [holds_assemble (nodup_keys_fragments hfragments hraw)]
  · rw [truths, rejoined, List.map_cons, List.map_cons, List.map_nil,
      Filter.passes_of_holds d hmissing, Filter.passes_of_holds d hnull, incrementable]
    generalize Filter.anyValue (·.looseEq .null) (d.lookup column) = b
    generalize (d.lookup column).isEmpty = e
    cases b <;> cases e <;> rfl
  · intro f hf
    rcases List.mem_cons.mp hf with rfl | hf
    · exact ⟨_, hmissing⟩
    · rw [List.mem_singleton.mp hf]
      exact ⟨_, hnull⟩

variable {clauses : List Clause} {filter : Document}

theorem holds_narrowed (hcolumn : isOperator column = false) (hraw : RawKeysDistinct clauses)
    (hfilter : Scope.filter s clauses = .ok filter) :
    ∃ scope, Scope.filter s (clauses ++ [Mutation.incrementable column]) = .ok scope ∧
      ∀ d, ClausesEvaluate s d clauses → Filter.holds d scope =
        .ok (Filter.passes d filter && incrementable (d.lookup column)) := by
  obtain ⟨g, hg, hholds⟩ := holds_incrementable (s := s) hcolumn
  exact holds_filter_narrowed hraw (rawKeysDistinct_incrementable column) hfilter hg hholds

end Scope

namespace Document

variable {d : Document} {column : String} {n : Int64}

theorem increment_cases (hdot : '.' ∉ column.toList) (h : d.CanIncrement column n) :
    Scope.incrementable (d.lookup column) = false ∧ d.Incremented column n d ∨
    Scope.incrementable (d.lookup column) = true ∧ ∃ v i, v.integer? = some i ∧
      Update.increment d column (.ofInt64 n) = .ok (d.insert column v) ∧
        d.Incremented column n (d.insert column v) := by
  have hn := Value.integer?_ofInt64 n
  rw [lookup_of_dotless hdot]
  rcases hcolumn : d.get? column with _ | v
  · refine Or.inr ⟨rfl, .ofInt64 n, n.toInt, hn, ?_, .absent hcolumn⟩
    obtain ⟨x, hx⟩ : ∃ x, (Value.ofInt64 n).numeric? = some x := by
      rcases Value.cases_of_integer? hn with ⟨m, hm, -⟩ | ⟨m, hm, -⟩
      all_goals
        rw [hm]
        exact ⟨_, rfl⟩
    rw [Update.increment, first?_of_dotless hdot, hcolumn, hx, set_of_dotless hdot]
  · rcases h v hcolumn with rfl | ⟨i, hv, hfits⟩
    · exact Or.inl ⟨rfl, .null hcolumn⟩
    · obtain ⟨sum, hadd, hsum⟩ := Value.add?_integers hv hn hfits
      refine Or.inr ⟨?_, sum, i + n.toInt, hsum, ?_, .added hcolumn hv hsum⟩
      · rcases Value.cases_of_integer? hv with ⟨m, rfl, -⟩ | ⟨m, rfl, -⟩ <;> rfl
      · rw [Update.increment, first?_of_dotless hdot, hcolumn]
        simp only [hadd, set_of_dotless hdot]

end Document

theorem Mutation.amount_integer (n : Int64) : amount (.integer n) = .ok (.ofInt64 n) := by
  rw [amount, Literal.toValue]
  rcases Value.cases_of_integer? (Value.integer?_ofInt64 n) with ⟨k, hk, -⟩ | ⟨k, hk, -⟩
  all_goals rw [hk]

namespace Query

open RelDoc.Filter Collection Document Scope

variable {column : String} {n : Int64} {p : Plan} {m : Metered} {filter : Document}

theorem increment_eq (q : Query) (column : String) (n : Int64) :
    q.increment column (.integer n) none =
      q.mutate ⟨[("$inc", .document [(column, .ofInt64 n)])], some (Mutation.incrementable column)⟩ := by
  rw [increment, Mutation.increment, Mutation.amount_integer]
  rfl

theorem settled_increment {scope d : Document} {v : Value} {i : Int} (hpass : passes d scope = true)
    (hv : v.integer? = some i)
    (h : Update.increment d column (.ofInt64 n) = .ok (d.insert column v)) :
    Accepts scope [("$inc", .document [(column, .ofInt64 n)])] d ∧
      settled scope [("$inc", .document [(column, .ofInt64 n)])] d = d.insert column v := by
  have happlied : Update.applied [("$inc", .document [(column, .ofInt64 n)])] d =
      .ok (d.insert column v, !Document.structEq (d.insert column v) d) := by
    refine Update.applied_eq_ok.mpr ⟨?_, rfl⟩
    have hedit : Update.edit "$inc" d column (.ofInt64 n) = .ok (d.insert column v) := h
    rw [Update.run, Update.editAll, hedit]
    rfl
  refine ⟨⟨⟨true, (passes_iff d scope).mp hpass⟩, fun _ => ⟨_, happlied⟩⟩, ?_⟩
  rw [settled_of_passes hpass happlied]
  rcases hsame : Document.structEq (d.insert column v) d with _ | _
  · rfl
  · exact (insert_of_structEq hv hsame).symm

theorem accepts_increment (hdot : '.' ∉ column.toList) {scope d : Document}
    (hscope : holds d scope = .ok (passes d filter && incrementable (d.lookup column)))
    (hcan : passes d filter = true → d.CanIncrement column n) :
    Accepts scope [("$inc", .document [(column, .ofInt64 n)])] d ∧
      if passes d filter then
        d.Incremented column n (settled scope [("$inc", .document [(column, .ofInt64 n)])] d)
      else settled scope [("$inc", .document [(column, .ofInt64 n)])] d = d := by
  have hpass := passes_of_holds d hscope
  have hout (h : passes d scope = false) :
      Accepts scope [("$inc", .document [(column, .ofInt64 n)])] d ∧
        settled scope [("$inc", .document [(column, .ofInt64 n)])] d = d := by
    refine ⟨⟨⟨_, hscope⟩, fun htrue => ?_⟩, settled_of_not_passes h⟩
    rw [h] at htrue
    cases htrue
  rcases hin : passes d filter with _ | _
  · rw [hin, Bool.false_and] at hpass
    exact hout hpass
  · rw [hin, Bool.true_and] at hpass
    rcases increment_cases hdot (hcan hin) with ⟨hnull, hkept⟩ | ⟨hsome, v, i, hv, hok, hinc⟩
    · obtain ⟨haccepts, hsettled⟩ := hout (hpass.trans hnull)
      rw [hsettled]
      exact ⟨haccepts, hkept⟩
    · obtain ⟨haccepts, hsettled⟩ := settled_increment (hpass.trans hsome) hv hok
      rw [hsettled]
      exact ⟨haccepts, hinc⟩

theorem increment_scope (hdot : '.' ∉ column.toList) (hcolumn : isOperator column = false)
    (hraw : RawKeysDistinct p.clauses) (hfilter : Scope.filter .standard p.clauses = .ok filter)
    (honline : m.collection.online = true)
    (hev : ∀ d ∈ m.collection.documents, ClausesEvaluate .standard d p.clauses)
    (hcan : ∀ d ∈ m.collection.documents, passes d filter = true → d.CanIncrement column n) :
    ∃ count, ((increment ⟨p, .standard, []⟩ column (.integer n) none).run m).1 = .ok count ∧
      List.Forall₂ (fun d after => after.erase column = d.erase column ∧
          if passes d filter then d.Incremented column n after else after = d)
        m.collection.documents
        ((increment ⟨p, .standard, []⟩ column (.integer n) none).run m).2.collection.documents := by
  obtain ⟨scope, hscope, hholds⟩ := holds_narrowed (s := .standard) hcolumn hraw hfilter
  have hdone (d : Document) (hd : d ∈ m.collection.documents) :=
    accepts_increment hdot (hholds d (hev d hd)) (hcan d hd)
  have hmultiple : flag (Mutation.options .standard []) "multiple" true = true := rfl
  have hupsert : flag (Mutation.options .standard []) "upsert" false = false := rfl
  obtain ⟨report, hreport⟩ :=
    run_update_of_accepts honline hmultiple hupsert fun d hd => (hdone d hd).1
  obtain ⟨-, hafter, -⟩ := run_update_ok honline hmultiple hupsert hreport
  let q : Query := ⟨p, .standard, []⟩
  let mutation : Mutation :=
    ⟨[("$inc", .document [(column, .ofInt64 n)])], some (Mutation.incrementable column)⟩
  have hguarded : Scope.filter q.settings (q.plan.clauses ++ mutation.guard.toList) = .ok scope :=
    hscope
  obtain ⟨hanswer, hcollection⟩ := run_mutate hguarded m
  rw [increment_eq]
  rw [hcollection, hafter, List.forall₂_map_right_iff, List.forall₂_same]
  refine ⟨report.affected, hanswer.trans (by rw [hreport]; rfl), fun d hd => ?_⟩
  obtain ⟨-, hsettled⟩ := hdone d hd
  refine ⟨?_, hsettled⟩
  split at hsettled
  · exact hsettled.erase_eq
  · rw [hsettled]

theorem increment_scope_widened :
    let clauses : List Clause := [⟨.and, .compare "city" "=" (.string "Oslo") false⟩]
    let person (city : String) (n : Value) : Document := [("city", .string city), ("n", n)]
    let docs := [person "Oslo" (.int32 2147483647), person "Oslo" .null, person "Rome" (.string "7")]
    let m : Metered := .ofCollection { Collection.empty "people" true with documents := docs }
    let p : Plan := { Plan.empty with clauses }
    let result := (increment ⟨p, .standard, []⟩ "n" (.integer 1) none).run m
    '.' ∉ "n".toList ∧ isOperator "n" = false ∧ RawKeysDistinct clauses ∧
      (∀ d ∈ docs, ClausesEvaluate .standard d clauses) ∧
      ∃ count a b c, result.1 = .ok count ∧ result.2.collection.documents = [a, b, c] ∧
        (person "Oslo" (.int32 2147483647)).Incremented "n" 1 a ∧ c = person "Rome" (.string "7") := by
  intro clauses person docs m p result
  have hdot : '.' ∉ "n".toList := by decide
  have hraw : RawKeysDistinct clauses := by simp [clauses, RawKeysDistinct, allLeaves, leaves]
  have hev : ∀ d ∈ docs, ClausesEvaluate .standard d clauses := by
    intro d hd clause hclause f hf
    simp only [docs, clauses, List.mem_cons, List.not_mem_nil, or_false] at hd hclause
    rcases hd with rfl | rfl | rfl <;> rw [hclause] at hf <;> cases hf <;> exact ⟨_, rfl⟩
  obtain ⟨filter, hfilter, hfirst, hthird⟩ : ∃ filter, Scope.filter .standard clauses = .ok filter ∧
      passes (person "Oslo" (.int32 2147483647)) filter = true ∧
      passes (person "Rome" (.string "7")) filter = false := ⟨_, rfl, rfl, rfl⟩
  have hcan : ∀ d ∈ docs, passes d filter = true → d.CanIncrement "n" 1 := by
    intro d hd hpass v hv
    simp only [docs, List.mem_cons, List.not_mem_nil, or_false] at hd
    rcases hd with rfl | rfl | rfl
    · refine Or.inr ⟨2147483647, ?_, by unfold Value.Fits; decide⟩
      rw [← Option.some.inj hv]
      rfl
    · exact Or.inl (Option.some.inj hv).symm
    · rw [hthird] at hpass
      cases hpass
  obtain ⟨count, hok, hdocs⟩ := increment_scope (p := p) (m := m) hdot (by decide) hraw hfilter rfl
    hev hcan
  obtain ⟨a, rest, ⟨-, ha⟩, hrest, hall⟩ := List.forall₂_cons_left_iff.mp hdocs
  obtain ⟨b, last, -, hlast, rfl⟩ := List.forall₂_cons_left_iff.mp hrest
  obtain ⟨c, none, ⟨-, hc⟩, hnone, rfl⟩ := List.forall₂_cons_left_iff.mp hlast
  obtain rfl := List.forall₂_nil_left_iff.mp hnone
  rw [if_pos hfirst] at ha
  rw [if_neg (by simp [hthird])] at hc
  exact ⟨hdot, by decide, hraw, hev, count, a, b, c, hok, hall, ha, hc⟩

end Query

end RelDoc
