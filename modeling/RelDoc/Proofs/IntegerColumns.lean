import RelDoc.Collection
import RelDoc.Proofs.ClauseReading
import RelDoc.Proofs.EqualityClauses
import RelDoc.Proofs.IntegerRounding
import RelDoc.Proofs.PathWrites

namespace RelDoc

def Operator.accepts? : Operator → Option (Ordering → Bool)
  | .eq => some (· == .eq)
  | .ne => some (· != .eq)
  | .lt => some (· == .lt)
  | .lte => some (· != .gt)
  | .gt => some (· == .gt)
  | .gte => some (· != .lt)
  | _ => none

namespace Value

open Decimal

theorem toInt_natAbs_lt (n : Int64) : n.toInt.natAbs < 2 ^ 64 := by
  have hlo := Int64.le_toInt n
  have hhi := Int64.toInt_lt n
  omega

theorem ofInt64_eq (n : Int64) :
    (∃ m : Int32, m.toInt = n.toInt ∧ ofInt64 n = .int32 m) ∨ ofInt64 n = .int64 n := by
  rw [ofInt64]
  split
  · rename_i hrange
    exact Or.inl ⟨_, Int32.toInt_ofInt_of_le (by omega) (by omega), rfl⟩
  · exact Or.inr rfl

theorem looseEq_int64 (a b : Int64) : (int64 b).looseEq (int64 a) = true ↔
    rounded b.toInt = rounded a.toInt :=
  nearest_beq (toInt_natAbs_lt b) (toInt_natAbs_lt a)

theorem looseEq_integers (a b : Int64) : (int64 b).looseEq (ofInt64 a) = true ↔
    rounded b.toInt = rounded a.toInt := by
  rcases ofInt64_eq a with ⟨m, hm, heq⟩ | heq
  · rw [heq, ← looseEq_int64 a b]
    change (nearest b.toInt == nearest m.toInt) = true ↔ (nearest b.toInt == nearest a.toInt) = true
    rw [hm]
  · rw [heq, looseEq_int64]

theorem order_integers (a b : Int64) : (int64 b).order (ofInt64 a) =
    compare (rounded b.toInt) (rounded a.toInt) := by
  have hnearest := order?_nearest (toInt_natAbs_lt b) (toInt_natAbs_lt a)
  rcases ofInt64_eq a with ⟨m, hm, heq⟩ | heq
  · rw [← hm] at hnearest ⊢
    rw [heq]
    change (order? (nearest b.toInt) (nearest m.toInt)).getD .eq = _
    rw [hnearest]
    rfl
  · rw [heq]
    change (order? (nearest b.toInt) (nearest a.toInt)).getD .eq = _
    rw [hnearest]
    rfl

end Value

namespace Filter

open Decimal

theorem rangeHolds_integers (accept : Ordering → Bool) (a b : Int64) :
    rangeHolds accept (Value.ofInt64 a) (.int64 b) =
      accept (compare (rounded b.toInt) (rounded a.toInt)) := by
  have hrank : (Value.ofInt64 a).rank = 2 := by
    rcases Value.ofInt64_eq a with ⟨m, -, heq⟩ | heq
    all_goals
      rw [heq]
      rfl
  rw [rangeHolds, hrank, Value.order_integers]
  rfl

theorem equalsAny_integers (a b : Int64) : equalsAny [.int64 b] (Value.ofInt64 a) =
    .ok (compare (rounded b.toInt) (rounded a.toInt) == .eq) := by
  have hloose : (Value.int64 b).looseEq (Value.ofInt64 a) =
      (compare (rounded b.toInt) (rounded a.toInt) == .eq) := by
    rw [Bool.eq_iff_iff, Value.looseEq_integers, beq_iff_eq, compare_eq_iff_eq]
  have hany : equalsAny [.int64 b] (Value.ofInt64 a) =
      .ok (anyValue (·.looseEq (Value.ofInt64 a)) [.int64 b]) := by
    rcases Value.ofInt64_eq a with ⟨m, -, heq⟩ | heq
    all_goals
      rw [heq]
      rfl
  rw [hany, anyValue, List.any_cons, List.any_nil, hloose, Bool.or_false, Bool.or_false]

theorem anyValue_integers (accept : Ordering → Bool) (a b : Int64) :
    anyValue (rangeHolds accept (Value.ofInt64 a)) [.int64 b] =
      accept (compare (rounded b.toInt) (rounded a.toInt)) := by
  rw [anyValue, List.any_cons, List.any_nil, rangeHolds_integers, Bool.or_false, Bool.or_false]

theorem conditionHolds_ofInt64 (reached : List Value) (a : Int64) :
    conditionHolds reached (Value.ofInt64 a) = equalsAny reached (Value.ofInt64 a) := by
  rcases Value.ofInt64_eq a with ⟨m, -, heq⟩ | heq
  all_goals
    rw [heq]
    rfl

theorem conditionHolds_integers {op : Operator} {accept : Ordering → Bool}
    (hop : op.accepts? = some accept) (a b : Int64) :
    conditionHolds [.int64 b] (Scope.compareWith op false (Value.ofInt64 a)) =
      .ok (accept (compare (rounded b.toInt) (rounded a.toInt))) := by
  cases op with
  | eq =>
    obtain rfl := Option.some.inj hop
    exact (conditionHolds_ofInt64 _ a).trans (equalsAny_integers a b)
  | ne =>
    obtain rfl := Option.some.inj hop
    have hunequal : Scope.compareWith .ne false (Value.ofInt64 a) =
        .document (Scope.under "$ne" (Value.ofInt64 a)) := rfl
    rw [hunequal, Scope.under, conditionHolds_operator rfl (by decide) (by decide)]
    change (equalsAny [.int64 b] (Value.ofInt64 a)).map (!·) = _
    rw [equalsAny_integers]
    rfl
  | lt | lte | gt | gte =>
    obtain rfl := Option.some.inj hop
    exact (conditionHolds_operator rfl (by decide) (by decide) _ (Value.ofInt64 a)).trans
      (congrArg Except.ok (anyValue_integers _ a b))
  | _ => cases hop

end Filter

theorem Document.lookup_column {column : String} (hdot : '.' ∉ column.toList) (v : Value) :
    lookup [(column, v)] column = [v] := by
  rw [lookup_of_dotless hdot, get?, if_pos rfl]
  rfl

namespace Scope

variable {s : Settings} {column : String}

theorem filter_comparison (hcolumn : isOperator column = false) (hid : column ≠ s.idField)
    {spelling : String} {op : Operator} {accept : Ordering → Bool}
    (hparse : Operator.parse spelling = .ok op) (hop : op.accepts? = some accept) (l : Literal) :
    filter s [⟨.and, .compare column spelling l false⟩] =
      .ok [(column, compareWith op false l.toValue)] := by
  have hprepare : prepare s column l = l.toValue := if_neg hid
  have hoperand : operand op l.toValue = .ok l.toValue := by
    cases op <;> first | rfl | cases hop
  apply filter_column hcolumn
  rw [fragment, compareFragment_eq_ok]
  refine ⟨op, l.toValue, hparse, ?_, rfl⟩
  rw [hprepare, hoperand]

end Scope

namespace Update

theorem length_foldl_appendNew (vs acc : List Value) :
    (vs.foldl appendNew acc).length ≤ acc.length + vs.length := by
  induction vs generalizing acc with
  | nil => exact Nat.le_refl _
  | cons v rest ih =>
    have hstep : (appendNew acc v).length ≤ acc.length + 1 := by
      rw [appendNew]
      split
      · omega
      · simp
    have hrest := ih (appendNew acc v)
    rw [List.foldl_cons, List.length_cons]
    omega

theorem foldl_appendNew_eq_append (vs acc : List Value) : vs.foldl appendNew acc = acc ++ vs ↔
    (∀ a ∈ acc, ∀ v ∈ vs, a.looseEq v = false) ∧ vs.Pairwise fun a b => a.looseEq b = false := by
  induction vs generalizing acc with
  | nil => simp
  | cons v rest ih =>
    rw [List.foldl_cons, List.pairwise_cons]
    by_cases hnew : ∀ a ∈ acc, a.looseEq v = false
    · have happend : appendNew acc v = acc ++ [v] := by
        rw [appendNew, if_neg]
        simpa using hnew
      rw [happend, List.append_cons acc v rest, ih]
      simp only [List.forall_mem_append, List.forall_mem_singleton, List.forall_mem_cons]
      constructor
      · rintro ⟨⟨hacc, hv⟩, hrest⟩
        exact ⟨fun a ha => ⟨hnew a ha, hacc a ha⟩, hv, hrest⟩
      · rintro ⟨hacc, hv, hrest⟩
        exact ⟨⟨fun a ha => (hacc a ha).2, hv⟩, hrest⟩
    · have hsame : appendNew acc v = acc := by
        rw [appendNew, if_pos]
        simpa using hnew
      rw [hsame]
      constructor
      · intro h
        have hlength := length_foldl_appendNew rest acc
        rw [h] at hlength
        simp at hlength
      · rintro ⟨hacc, -⟩
        exact absurd (fun a ha => hacc a ha v (by simp)) hnew

end Update

namespace Collection

open Decimal

theorem flatMap_columnValues {column : String} {docs : List Document} {ns : List Int64}
    (h : List.Forall₂ (fun d n => d.lookup column = [.int64 n]) docs ns) :
    docs.flatMap (columnValues column) = ns.map .int64 := by
  induction h with
  | nil => rfl
  | cons hd _ ih =>
    rw [List.flatMap_cons, ih, columnValues, hd]
    rfl

theorem distinctValues_integers {column : String} {docs : List Document} {ns : List Int64}
    (h : List.Forall₂ (fun d n => d.lookup column = [.int64 n]) docs ns) :
    distinctValues column docs = ns.map .int64 ↔ (ns.map fun n => rounded n.toInt).Nodup := by
  have hpair (m n : Int64) : (Value.int64 m).looseEq (.int64 n) = false ↔
      rounded m.toInt ≠ rounded n.toInt := by
    rw [Ne, ← Value.looseEq_int64, Bool.not_eq_true]
  have hall := Update.foldl_appendNew_eq_append (ns.map Value.int64) []
  rw [List.nil_append] at hall
  rw [distinctValues, flatMap_columnValues h, hall, List.Nodup, List.pairwise_map,
    List.pairwise_map]
  simp [hpair]

end Collection

namespace Scope

open RelDoc.Filter Decimal

variable {s : Settings} {column : String}

/-- Comparisons of a column with an integer answer for the rounded integers, which is the right answer
unless the operator tells two integers apart that rounding makes equal; and all integers of a column
are found to be distinct exactly if rounding leaves them distinct. Up to 53 digits nothing is rounded. -/
theorem integer_columns (hdot : '.' ∉ column.toList) (hcolumn : isOperator column = false)
    (hid : column ≠ s.idField) :
    (∀ (spelling : String) (op : Operator) (accept : Ordering → Bool) (a b : Int64),
      Operator.parse spelling = .ok op → op.accepts? = some accept →
        ∃ f, filter s [⟨.and, .compare column spelling (.integer a) false⟩] = .ok f ∧
          holds [(column, .int64 b)] f =
            .ok (accept (compare (rounded b.toInt) (rounded a.toInt))) ∧
          (holds [(column, .int64 b)] f = .ok (accept (compare b.toInt a.toInt)) ↔
            (rounded b.toInt = rounded a.toInt → accept (compare b.toInt a.toInt) = accept .eq))) ∧
      (∀ (c : Collection) (selection : Document) (docs : List Document) (ns : List Int64),
        c.online = true → select selection c.documents = .ok docs →
          List.Forall₂ (fun d n => d.lookup column = [.int64 n]) docs ns →
            ((c.run (.distinct column selection)).1 = .ok (ns.map .int64) ↔
              (ns.map fun n => rounded n.toInt).Nodup)) ∧
      (∀ n : Int, n.natAbs ≤ 2 ^ 53 → rounded n = n) := by
  refine ⟨?_, ?_, fun n hn => rounded_eq hn⟩
  · intro spelling op accept a b hparse hop
    have hholds : holds [(column, .int64 b)]
        [(column, compareWith op false (Literal.integer a).toValue)] =
          .ok (accept (compare (rounded b.toInt) (rounded a.toInt))) := by
      rw [holds_column _ hcolumn, Document.lookup_column hdot, Literal.toValue]
      exact conditionHolds_integers hop a b
    refine ⟨_, filter_comparison hcolumn hid hparse hop _, hholds, ?_⟩
    rw [hholds, Except.ok.injEq]
    by_cases hrounded : rounded b.toInt = rounded a.toInt
    · rw [compare_eq_iff_eq.mpr hrounded, eq_comm]
      exact ⟨fun h _ => h, fun h => h hrounded⟩
    · rw [compare_rounded hrounded]
      exact iff_of_true rfl fun h => absurd h hrounded
  · intro c selection docs ns honline hselect hcolumns
    have hrun : (c.run (.distinct column selection)).1 =
        (select selection c.documents).map (Collection.distinctValues column) := by
      rw [Collection.run, if_pos honline]
      rfl
    rw [hrun, hselect, ← Collection.distinctValues_integers hcolumns]
    change Except.ok (Collection.distinctValues column docs) = .ok (ns.map .int64) ↔ _
    rw [Except.ok.injEq]

theorem integer_columns_large :
    let least : Int64 := 9007199254740992
    let next : Int64 := 9007199254740993
    let docs : List Document := [[("n", .int64 least)], [("n", .int64 next)]]
    let c : Collection := { Collection.empty "orders" true with documents := docs }
    '.' ∉ "n".toList ∧ isOperator "n" = false ∧ "n" ≠ Settings.standard.idField ∧ least ≠ next ∧
      (∃ f, filter .standard [⟨.and, .compare "n" "=" (.integer least) false⟩] = .ok f ∧
        holds [("n", .int64 next)] f = .ok true) ∧
      (c.run (.distinct "n" [])).1 ≠ .ok [.int64 least, .int64 next] := by
  intro least next docs c
  have hdot : '.' ∉ "n".toList := by decide
  have hcolumn : isOperator "n" = false := by decide
  have hid : "n" ≠ Settings.standard.idField := by decide
  have hrounded : rounded next.toInt = rounded least.toInt := by decide +kernel
  obtain ⟨hcompare, hdistinct, -⟩ := integer_columns (s := .standard) hdot hcolumn hid
  refine ⟨hdot, hcolumn, hid, by decide, ?_, ?_⟩
  · obtain ⟨f, hf, hholds, -⟩ := hcompare "=" .eq _ least next rfl rfl
    refine ⟨f, hf, ?_⟩
    rw [hholds, compare_eq_iff_eq.mpr hrounded]
    rfl
  · have hcolumns : List.Forall₂ (fun d n => Document.lookup d "n" = [.int64 n]) docs
        [least, next] := .cons rfl (.cons rfl .nil)
    intro hall
    have hnodup := (hdistinct c [] docs [least, next] rfl rfl hcolumns).mp hall
    exact absurd hnodup (by simp [hrounded])

end Scope

end RelDoc
