import RelDoc.Plan.Scope
import RelDoc.Proofs.FilterEvaluation
import RelDoc.Proofs.LooseEquality

namespace RelDoc.Document

theorem isOperators_insert (d : Document) (key : String) (v : Value) (hd : d ≠ []) :
    isOperators (d.insert key v) = isOperators d := by
  rcases d with _ | ⟨⟨k, w⟩, rest⟩
  · exact absurd rfl hd
  · simp only [insert]
    split
    · rename_i h; subst h; rfl
    · rfl

theorem insert_ne_nil (d : Document) (key : String) (v : Value) : d.insert key v ≠ [] := by
  rcases d with _ | ⟨⟨k, w⟩, rest⟩
  · simp [insert]
  · simp only [insert]
    split <;> simp

theorem isOperators_merge (fields : List (String × Value)) {d : Document} (hd : d ≠ []) :
    isOperators (d.merge fields) = isOperators d := by
  induction fields generalizing d with
  | nil => rfl
  | cons field rest ih =>
    change isOperators ((d.insert field.1 field.2).merge rest) = _
    rw [ih (insert_ne_nil d _ _), isOperators_insert d _ _ hd]

theorem isOperators_ofFields (fields : List (String × Value)) :
    isOperators (ofFields fields) = isOperators fields := by
  cases fields with
  | nil => rfl
  | cons field rest => exact isOperators_merge rest (by simp [insert])

theorem reach_setAt {segments : List String} (hs : segments ≠ []) (v : Value) (d : Document) :
    (Value.document (setAt segments v d)).reach segments = [v] := by
  induction segments generalizing d with
  | nil => exact absurd rfl hs
  | cons key rest ih =>
    cases rest with
    | nil => simp [setAt, Value.reach, Value.step]
    | cons next rest =>
      rw [setAt, Value.reach, Value.step, get?_insert]
      simpa using ih (by simp) _
      simp

theorem lookup_set (d : Document) (path : String) (v : Value) : (d.set path v).lookup path = [v] := by
  refine reach_setAt ?_ v d
  simp [Path.segments, Path.pieces_ne_nil]

theorem set_inj {path : String} {v w : Value} {d : Document} (h : d.set path v = d.set path w) :
    v = w := by
  have hread := lookup_set d path v
  rw [h, lookup_set] at hread
  exact (List.singleton_inj.mp hread).symm

end RelDoc.Document

namespace RelDoc

namespace Filter

open Value

theorem anyValue_eq_true {test : Value → Bool} {reached : List Value} :
    anyValue test reached = true ↔ ∃ w ∈ reached,
      test w = true ∨ ∃ items, w = .array items ∧ ∃ x ∈ items, test x = true := by
  rw [anyValue, List.any_eq_true]
  apply exists_congr
  intro w
  apply and_congr_right
  intro _
  rw [Bool.or_eq_true]
  apply or_congr_right
  cases w <;> simp

/-- One of the values that were reached is equal to `v`, or an element of an array among them is;
null is equal to what is not there. -/
def EqualIn (v : Value) (reached : List Value) : Prop :=
  (∃ w ∈ reached, w.looseEq v = true ∨ ∃ items, w = .array items ∧ ∃ x ∈ items, x.looseEq v = true) ∨
    reached = [] ∧ v = .null

theorem equalsAny_equalIn {v : Value} (hv : ∀ pattern options, v ≠ .regex pattern options)
    (reached : List Value) : ∃ b, equalsAny reached v = .ok b ∧ (b = true ↔ EqualIn v reached) := by
  cases reached with
  | nil => cases v <;> exact ⟨_, rfl, by simp [EqualIn]⟩
  | cons w rest =>
    have hany : equalsAny (w :: rest) v = .ok (anyValue (·.looseEq v) (w :: rest)) := by
      cases v with
      | regex pattern options => exact absurd rfl (hv pattern options)
      | _ => rfl
    refine ⟨_, hany, ?_⟩
    rw [anyValue_eq_true, EqualIn]
    simp

section extended

variable {fs gs : List (String × Value)}

theorem looseEq_eq_false {a b : Value} (h : b.size < a.size) : a.looseEq b = false := by
  cases hab : a.looseEq b with
  | false => rfl
  | true =>
    have := size_of_alike (Or.inl hab)
    omega

theorem size_le_extended (fs gs : List (String × Value)) :
    (document fs).size ≤ (document (fs ++ gs)).size := by
  rw [size, size, fieldsSize_append]
  omega

theorem order_extended {x : Value} (h : x.size < (document fs).size) :
    (document (fs ++ gs)).order x = (document fs).order x := by
  by_cases hx : ∃ xs, x = .document xs
  · obtain ⟨xs, rfl⟩ := hx
    rw [order, order]
    exact orderFields_append (by rw [size, size] at h; omega)
  · cases x with
    | document xs => exact absurd ⟨xs, rfl⟩ hx
    | _ => rfl

theorem rangeHolds_extended {x : Value} (h : x.size < (document fs).size)
    (accept : Ordering → Bool) :
    rangeHolds accept x (.document (fs ++ gs)) = rangeHolds accept x (.document fs) := by
  rw [rangeHolds, rangeHolds, order_extended h]
  rfl

theorem anyValue_document (test : Value → Bool) (fields : List (String × Value)) :
    anyValue test [.document fields] = test (.document fields) := by
  simp [anyValue]

theorem equalsAny_extended {x : Value} (h : x.size < (document fs).size) :
    equalsAny [.document (fs ++ gs)] x = equalsAny [.document fs] x := by
  have hsmall := looseEq_eq_false h
  have hextended := looseEq_eq_false (Nat.lt_of_lt_of_le h (size_le_extended fs gs))
  cases x with
  | regex pattern options => rfl
  | _ => simp only [equalsAny, anyValue_document, hsmall, hextended]

theorem anyM_congr {f g : Value → Except StoreError Bool} {xs : List Value}
    (h : ∀ x ∈ xs, f x = g x) : xs.anyM f = xs.anyM g := by
  induction xs with
  | nil => rfl
  | cons x rest ih =>
    rw [List.anyM_cons, List.anyM_cons, h x (by simp), ih fun y hy => h y (List.mem_cons_of_mem _ hy)]

theorem allM_congr {f g : Value → Except StoreError Bool} {xs : List Value}
    (h : ∀ x ∈ xs, f x = g x) : xs.allM f = xs.allM g := by
  induction xs with
  | nil => rfl
  | cons x rest ih =>
    rw [List.allM_cons, List.allM_cons, h x (by simp), ih fun y hy => h y (List.mem_cons_of_mem _ hy)]

theorem equalsAny_item_extended {x : Value} (h : x.size < (document fs).size) {items : List Value}
    (hx : x.asArray? = some items) :
    ∀ y ∈ items, equalsAny [.document (fs ++ gs)] y = equalsAny [.document fs] y := by
  intro y hy
  cases x with
  | array xs =>
    obtain rfl := Option.some.inj hx
    exact equalsAny_extended (Nat.lt_trans (size_lt_array hy) h)
  | _ => simp [asArray?] at hx

theorem inList_extended {x : Value} (h : x.size < (document fs).size) (op : String) :
    inList [.document (fs ++ gs)] op x = inList [.document fs] op x := by
  unfold inList
  split
  · rename_i items hx
    exact anyM_congr (equalsAny_item_extended h hx)
  · rfl

theorem allOf_extended {x : Value} (h : x.size < (document fs).size) :
    allOf [.document (fs ++ gs)] x = allOf [.document fs] x := by
  unfold allOf
  split
  · rename_i items hx
    rw [allM_congr (equalsAny_item_extended h hx)]
  · rfl

theorem plainOperatorHolds_extended {x : Value} (h : x.size < (document fs).size) (whole : Document)
    (op : String) : plainOperatorHolds whole [.document (fs ++ gs)] op x =
      plainOperatorHolds whole [.document fs] op x := by
  unfold plainOperatorHolds
  simp only [equalsAny_extended h, anyValue_document, rangeHolds_extended h, inList_extended h,
    allOf_extended h]
  split <;> rfl

theorem operatorsHold_congr {reached reached' : List Value} {ops : List (String × Value)}
    (h : ∀ op ∈ ops, ∀ whole,
      operatorHolds whole reached op.1 op.2 = operatorHolds whole reached' op.1 op.2)
    (whole : Document) : operatorsHold whole reached ops = operatorsHold whole reached' ops := by
  induction ops with
  | nil => rfl
  | cons op rest ih =>
    rw [operatorsHold, operatorsHold, h op (by simp), ih fun o ho => h o (List.mem_cons_of_mem _ ho)]

theorem operatorHolds_extended (x : Value) (h : x.size < (document fs).size) (whole : Document)
    (op : String) : operatorHolds whole [.document (fs ++ gs)] op x =
      operatorHolds whole [.document fs] op x := by
  induction x using shapeInduction generalizing whole op with
  | scalar x hx =>
    have hscalar : ∀ fields, x ≠ .document fields := by
      rintro fields rfl
      simp [isScalar] at hx
    rw [operatorHolds, operatorHolds, equalsAny_extended h, plainOperatorHolds_extended h]
    · exact fun fields => hscalar fields
    · exact fun fields => hscalar fields
  | array items ih =>
    rw [operatorHolds, operatorHolds, equalsAny_extended h, plainOperatorHolds_extended h] <;> simp
  | document fields ih =>
    -- Only a negation goes into its operand: no elements are in a document.
    have hops := operatorsHold_congr (fun field hfield whole =>
      ih field hfield (Nat.lt_trans (size_lt_document hfield) h) whole field.1) fields
    simp only [operatorHolds, hops, equalsAny_extended h, plainOperatorHolds_extended h]
    rfl

theorem operatorsHold_extended (fs gs : List (String × Value)) :
    operatorsHold fs [.document (fs ++ gs)] fs = operatorsHold fs [.document fs] fs :=
  operatorsHold_congr (fun op hop whole =>
    operatorHolds_extended op.2 (size_lt_document hop) whole op.1) fs

end extended

end Filter

def Literal.isOperators : Literal → Bool
  | .map ((key, _) :: _) => isOperator key
  | _ => false

namespace Scope

open RelDoc.Filter

def TestsEquality (f : Document) (column : String) (v : Value) : Prop :=
  ∀ d, ∃ b, holds d f = .ok b ∧ (b = true ↔ EqualIn v (d.lookup column))

variable {s : Settings} {column : String} {l : Literal}

theorem filter_column (hcolumn : isOperator column = false) {condition : Condition} {v : Value}
    (hfragment : fragment s condition = .ok (under column v)) :
    filter s [⟨.and, condition⟩] = .ok [(column, v)] := by
  have hlist : ¬(column = "$and" ∨ column = "$or") := by
    rintro (rfl | rfl) <;> exact absurd hcolumn (by decide)
  have hfragments : fragments s [⟨.and, condition⟩] = .ok [(.and, [(column, v)])] := by
    rw [fragments, hfragment]
    rfl
  rw [filter, compile, hfragments]
  simp [Except.map, assemble, Constraints.merge, Constraints.add, Constraints.toDocument,
    Constraint.ofField, hlist, Constraint.toValue]

theorem filter_equality (hcolumn : isOperator column = false) (hid : column ≠ s.idField) :
    filter s [⟨.and, .compare column "=" l false⟩] = .ok [(column, l.toValue)] := by
  have hprepare : prepare s column l = l.toValue := if_neg hid
  have hfragment : fragment s (.compare column "=" l false) = .ok (under column l.toValue) := by
    rw [fragment, ← hprepare]
    rfl
  exact filter_column hcolumn hfragment

theorem conditionHolds_toValue (hl : l.isData = true) (h : l.isOperators = false)
    (reached : List Value) : conditionHolds reached l.toValue = equalsAny reached l.toValue := by
  cases l with
  | map pairs =>
    have hfields : Document.isOperators (Document.ofFields (Literal.fieldValues pairs)) = false := by
      rw [Document.isOperators_ofFields]
      rcases pairs with _ | ⟨⟨key, first⟩, rest⟩
      · rfl
      · exact h
    rw [Literal.toValue, conditionHolds, if_neg (by simp [hfields])]
  | native v => simp [Literal.isData] at hl
  | integer n => rw [Literal.toValue, Value.ofInt64]; split <;> rfl
  | _ => rfl

theorem toValue_ne_regex (hl : l.isData = true) (pattern options : String) :
    l.toValue ≠ .regex pattern options := by
  cases l with
  | native v => simp [Literal.isData] at hl
  | integer n => rw [Literal.toValue, Value.ofInt64]; split <;> simp
  | _ => simp [Literal.toValue]

theorem not_testsEquality_of_isOperators (hcolumn : isOperator column = false)
    (hl : l.isData = true) (h : l.isOperators = true) :
    ¬TestsEquality [(column, l.toValue)] column l.toValue := by
  intro htest
  rcases l with _ | _ | _ | _ | _ | _ | _ | _ | pairs | _ <;>
    first | simp [Literal.isOperators] at h; done | skip
  obtain ⟨fields, hfields⟩ : ∃ fields, Document.ofFields (Literal.fieldValues pairs) = fields :=
    ⟨_, rfl⟩
  have hops : Document.isOperators fields = true := by
    rw [← hfields, Document.isOperators_ofFields]
    rcases pairs with _ | ⟨⟨key, first⟩, rest⟩
    · simp [Literal.isOperators] at h
    · exact h
  -- The column holds the map itself, then the map with one field more.
  have hself := Literal.looseEq_toValue hl
  rw [Literal.toValue, hfields] at htest hself
  obtain ⟨b, hb, hbiff⟩ := htest (Document.set [] column (.document fields))
  obtain ⟨b', hb', hbiff'⟩ := htest (Document.set [] column (.document (fields ++ [("", .null)])))
  rw [holds_column _ hcolumn, Document.lookup_set, conditionHolds, if_pos hops] at hb hb'
  rw [operatorsHold_extended, hb] at hb'
  obtain rfl := Except.ok.inj hb'
  rw [Document.lookup_set] at hbiff hbiff'
  have htrue : b = true := hbiff.mpr (Or.inl ⟨_, by simp, Or.inl hself⟩)
  have hsize : (Value.document fields).size < (Value.document (fields ++ [("", .null)])).size := by
    simp [Value.size, Value.fieldsSize_append, Value.fieldsSize]
  rcases hbiff'.mp htrue with ⟨w, hw, hequal | ⟨items, rfl, -⟩⟩ | ⟨hnil, -⟩
  · obtain rfl := List.mem_singleton.mp hw
    rw [looseEq_eq_false hsize] at hequal
    cases hequal
  · simp at hw
  · simp at hnil

/-- A clause that compares a column with data by `=` has a filter, which reads the data as a condition
on the column. It tests for equality exactly if the data is no map whose first key is an operator. -/
theorem equality_clause_iff (hcolumn : isOperator column = false) (hid : column ≠ s.idField)
    (hl : l.isData = true) : ∃ f, filter s [⟨.and, .compare column "=" l false⟩] = .ok f ∧
      (∀ d, holds d f = conditionHolds (d.lookup column) l.toValue) ∧
      (TestsEquality f column l.toValue ↔ l.isOperators = false) := by
  refine ⟨_, filter_equality hcolumn hid, fun d => holds_column d hcolumn _, fun htest => ?_, ?_⟩
  · cases hops : l.isOperators with
    | false => rfl
    | true => exact absurd htest (not_testsEquality_of_isOperators hcolumn hl hops)
  · intro hplain d
    rw [holds_column d hcolumn, conditionHolds_toValue hl hplain]
    exact equalsAny_equalIn (toValue_ne_regex hl) _

theorem equality_clause_iff_greater :
    let l : Literal := .map [("$gt", .integer 1)]
    isOperator "age" = false ∧ "age" ≠ Settings.standard.idField ∧ l.isData = true ∧
      ∃ f, filter .standard [⟨.and, .compare "age" "=" l false⟩] = .ok f ∧
        holds [("age", .int32 5)] f = .ok true ∧ ¬TestsEquality f "age" l.toValue := by
  intro l
  have hcolumn : isOperator "age" = false := by decide
  have hid : "age" ≠ Settings.standard.idField := by decide
  have hl : l.isData = true := rfl
  obtain ⟨f, hf, hholds, hiff⟩ := equality_clause_iff hcolumn hid hl
  refine ⟨hcolumn, hid, hl, f, hf, ?_, fun htest => ?_⟩
  · rw [hholds]
    rfl
  · exact absurd (hiff.mp htest) (by decide)

end Scope

end RelDoc
