import RelDoc.Proofs.ClauseReading
import RelDoc.Proofs.LikePatterns

namespace RelDoc

def Value.isOperand : Value → Bool
  | .regex _ _ => false
  | .document fields => !Document.isOperators fields
  | _ => true

def Operator.isUnderstood : Operator → Bool
  | .eq | .ne | .lt | .lte | .gt | .gte | .like | .notLike => true
  | .structural name => name == "exists"
  | .regex | .notRegex => false

def Condition.Understood : Condition → Prop
  | .compare column operator l _ => isOperator column = false ∧ l.toValue.isOperand = true ∧
      ∀ op, Operator.parse operator = .ok op → op.isUnderstood = true
  | .oneOf column ls | .noneOf column ls | .all column ls =>
    isOperator column = false ∧ ∀ l ∈ ls, l.toValue.isOperand = true
  | .null column | .notNull column => isOperator column = false
  | .between column low high _ =>
    isOperator column = false ∧ low.toValue.isOperand = true ∧ high.toValue.isOperand = true
  | .nested _ | .raw _ => False

namespace Filter

def Comparable (v : Value) : Prop := ∀ reached, ∃ b, equalsAny reached v = .ok b

def Readable (condition : Value) : Prop := ∀ reached, ∃ b, conditionHolds reached condition = .ok b

variable {v : Value} {op : String}

theorem comparable_of_isOperand (h : v.isOperand = true) : Comparable v := by
  intro reached
  cases reached with
  | nil => cases v <;> exact ⟨_, rfl⟩
  | cons first rest =>
    cases v with
    | regex pattern options => cases h
    | _ => exact ⟨_, rfl⟩

theorem comparable_regex {pattern options : String} {p : Pattern}
    (h : regex pattern options = .ok p) : Comparable (.regex pattern options) := by
  intro reached
  cases reached with
  | nil => exact ⟨_, rfl⟩
  | cons first rest =>
    rw [equalsAny, h]
    · exact ⟨_, rfl⟩
    · simp

theorem anyM_ok {f : Value → Except StoreError Bool} {vs : List Value}
    (h : ∀ v ∈ vs, ∃ b, f v = .ok b) : ∃ b, vs.anyM f = .ok b := by
  induction vs with
  | nil => exact ⟨false, rfl⟩
  | cons v rest ih =>
    obtain ⟨⟨b, hb⟩, hrest⟩ := List.forall_mem_cons.mp h
    rw [List.anyM, hb]
    cases b with
    | true => exact ⟨true, rfl⟩
    | false => exact ih hrest

theorem allM_ok {f : Value → Except StoreError Bool} {vs : List Value}
    (h : ∀ v ∈ vs, ∃ b, f v = .ok b) : ∃ b, vs.allM f = .ok b := by
  induction vs with
  | nil => exact ⟨true, rfl⟩
  | cons v rest ih =>
    obtain ⟨⟨b, hb⟩, hrest⟩ := List.forall_mem_cons.mp h
    rw [List.allM, hb]
    cases b with
    | true => exact ih hrest
    | false => exact ⟨false, rfl⟩

theorem map_ok {x : Except StoreError Bool} (h : ∃ b, x = .ok b) (f : Bool → Bool) :
    ∃ b, x.map f = .ok b := by
  obtain ⟨b, rfl⟩ := h
  exact ⟨f b, rfl⟩

theorem conditionHolds_of_isOperand (h : v.isOperand = true) (reached : List Value) :
    conditionHolds reached v = equalsAny reached v := by
  cases v with
  | document fields =>
    rw [Value.isOperand, Bool.not_eq_true'] at h
    rw [conditionHolds, if_neg (by simp [h])]
  | _ => rfl

theorem readable_of_isOperand (h : v.isOperand = true) : Readable v := by
  intro reached
  rw [conditionHolds_of_isOperand h]
  exact comparable_of_isOperand h reached

theorem operatorHolds_not (whole : Document) (reached : List Value) (condition : Value) :
    operatorHolds whole reached "$not" condition = (conditionHolds reached condition).map (!·) := by
  cases condition <;> simp [operatorHolds, conditionHolds]

theorem operatorsHold_ok {ops : List (String × Value)} {whole : Document} {reached : List Value}
    (h : ∀ entry ∈ ops, ∃ b, operatorHolds whole reached entry.1 entry.2 = .ok b) :
    ∃ b, operatorsHold whole reached ops = .ok b := by
  induction ops with
  | nil => exact ⟨true, by rw [operatorsHold]⟩
  | cons entry rest ih =>
    obtain ⟨op, operand⟩ := entry
    obtain ⟨⟨b, hb⟩, hrest⟩ := List.forall_mem_cons.mp h
    rw [operatorsHold, hb]
    cases b with
    | true => exact ih hrest
    | false => exact ⟨false, rfl⟩

theorem readable_operators (ops : Document) (hops : ops.isOperators = true)
    (h : ∀ entry ∈ ops, ∀ whole reached, ∃ b, operatorHolds whole reached entry.1 entry.2 = .ok b) :
    Readable (.document ops) := by
  intro reached
  rw [conditionHolds, if_pos hops]
  exact operatorsHold_ok fun entry hentry => h entry hentry ops reached

theorem readable_operator (hop : isOperator op = true)
    (h : ∀ whole reached, ∃ b, operatorHolds whole reached op v = .ok b) :
    Readable (.document (Scope.under op v)) := by
  refine readable_operators [(op, v)] hop fun entry hentry => ?_
  rw [List.mem_singleton.mp hentry]
  exact h

theorem readable_not {condition : Value} (h : Readable condition) :
    Readable (.document (Scope.under "$not" condition)) := by
  refine readable_operator rfl fun whole reached => ?_
  rw [operatorHolds_not]
  exact map_ok (h reached) _

def isRange (op : String) : Bool := op == "$lt" || op == "$lte" || op == "$gt" || op == "$gte"

theorem operatorHolds_range (hop : isRange op = true) (whole : Document) (reached : List Value)
    (v : Value) : ∃ b, operatorHolds whole reached op v = .ok b := by
  simp only [isRange, Bool.or_eq_true, beq_iff_eq] at hop
  rcases hop with ((rfl | rfl) | rfl) | rfl
  all_goals
    rw [operatorHolds_plain (by decide) (by decide)]
    exact ⟨_, rfl⟩

theorem readable_range (hop : isRange op = true) (v : Value) :
    Readable (.document (Scope.under op v)) := by
  refine readable_operator ?_ fun whole reached => operatorHolds_range hop whole reached v
  simp only [isRange, Bool.or_eq_true, beq_iff_eq] at hop
  rcases hop with ((rfl | rfl) | rfl) | rfl <;> rfl

theorem readable_exists (v : Value) : Readable (.document (Scope.under "$exists" v)) := by
  refine readable_operator rfl fun whole reached => ?_
  rw [operatorHolds_plain (by decide) (by decide)]
  exact ⟨_, rfl⟩

theorem readable_ne (h : Comparable v) : Readable (.document (Scope.under "$ne" v)) := by
  refine readable_operator rfl fun whole reached => ?_
  rw [operatorHolds_plain (by decide) (by decide)]
  exact map_ok (h reached) _

theorem readable_list {items : List Value} (hop : op = "$in" ∨ op = "$nin" ∨ op = "$all")
    (h : ∀ v ∈ items, Comparable v) : Readable (.document (Scope.under op (.array items))) := by
  have hany (reached : List Value) := anyM_ok fun v hv => h v hv reached
  have hall (reached : List Value) := allM_ok fun v hv => h v hv reached
  refine readable_operator (by rcases hop with rfl | rfl | rfl <;> rfl) fun whole reached => ?_
  rcases hop with rfl | rfl | rfl
  all_goals rw [operatorHolds_plain (by decide) (by decide)]
  · exact hany reached
  · exact map_ok (hany reached) _
  · change ∃ b, (if items.isEmpty then Except.ok false else items.allM (equalsAny reached)) = .ok b
    split
    · exact ⟨false, rfl⟩
    · exact hall reached

theorem evaluates_column {column : String} (hcolumn : isOperator column = false) {condition : Value}
    (h : Readable condition) (d : Document) : Evaluates d (Scope.under column condition) := by
  obtain ⟨b, hb⟩ := h (d.lookup column)
  exact ⟨b, (holds_column d hcolumn condition).trans hb⟩

end Filter

namespace Scope

open RelDoc.Filter

variable {s : Settings} {column : String} {l : Literal}

theorem isOperand_prepare (s : Settings) (column : String) (h : l.toValue.isOperand = true) :
    (prepare s column l).isOperand = true := by
  have hstring (text : String) : (Identifier.ofString text).isOperand = true := by
    rw [Identifier.ofString]
    split
    · rfl
    · split <;> rfl
  rw [prepare]
  split
  · unfold Identifier.normalize
    split
    · exact hstring _
    · exact hstring _
    · rw [Identifier.ofBytes]
      split
      · exact hstring _
      · rfl
    · exact h
  · exact h

theorem readable_like {v w : Value} (hw : Pattern.Like.regex v = .ok w) :
    Readable w ∧ unequal w = .document (under "$not" w) := by
  unfold Pattern.Like.regex at hw
  split at hw
  · rw [← Except.ok.inj hw]
    exact ⟨comparable_regex (regex_like _), rfl⟩
  · cases hw

theorem unequal_of_isOperand {v : Value} (hv : v.isOperand = true) :
    unequal v = .document (under "$ne" v) := by
  cases v <;> first | rfl | cases hv

theorem readable_compareWith {op : Operator} (hop : op.isUnderstood = true) {v w : Value}
    (hv : v.isOperand = true) (hw : operand op v = .ok w) (negated : Bool) :
    Readable (compareWith op negated w) := by
  have hcomparable := comparable_of_isOperand hv
  cases op with
  | eq =>
    rw [← Except.ok.inj hw]
    cases negated with
    | false => exact readable_of_isOperand hv
    | true =>
      change Readable (unequal v)
      rw [unequal_of_isOperand hv]
      exact readable_ne hcomparable
  | ne =>
    rw [← Except.ok.inj hw]
    cases negated with
    | false => exact readable_ne hcomparable
    | true => exact readable_not (readable_ne hcomparable)
  | lt | lte | gt | gte =>
    cases negated with
    | false => exact readable_range rfl w
    | true => exact readable_not (readable_range rfl w)
  | like =>
    obtain ⟨hreadable, hunequal⟩ := readable_like hw
    cases negated with
    | false => exact hreadable
    | true =>
      change Readable (unequal w)
      rw [hunequal]
      exact readable_not hreadable
  | notLike =>
    obtain ⟨hreadable, -⟩ := readable_like hw
    cases negated with
    | false => exact readable_not hreadable
    | true => exact hreadable
  | structural name =>
    obtain rfl : name = "exists" := beq_iff_eq.mp hop
    cases negated with
    | false => exact readable_exists w
    | true => exact readable_not (readable_exists w)
  | regex | notRegex => cases hop

theorem evaluates_compare {operator : String} {negated : Bool}
    (h : (Condition.compare column operator l negated).Understood) {f : Document}
    (hf : fragment s (.compare column operator l negated) = .ok f) (d : Document) :
    Evaluates d f := by
  obtain ⟨hcolumn, hl, hop⟩ := h
  rw [fragment, compareFragment_eq_ok] at hf
  obtain ⟨op, v, hparse, hv, rfl⟩ := hf
  exact evaluates_column hcolumn
    (readable_compareWith (hop op hparse) (isOperand_prepare s column hl) hv negated) d

theorem comparable_prepareAll {ls : List Literal} (h : ∀ l ∈ ls, l.toValue.isOperand = true) :
    ∀ v ∈ ls.map (prepare s column), Comparable v := by
  intro v hv
  obtain ⟨l, hl, rfl⟩ := List.mem_map.mp hv
  exact comparable_of_isOperand (isOperand_prepare s column (h l hl))

theorem evaluates_between (hcolumn : isOperator column = false) (low high : Value) (negated : Bool)
    (d : Document) : Evaluates d (betweenFragment column low high negated) := by
  cases negated with
  | false =>
    have hops : isOperator "$gte" = true := rfl
    apply evaluates_column hcolumn
    refine readable_operators [("$gte", low), ("$lte", high)] hops
      fun entry hentry whole reached => ?_
    simp only [List.mem_cons, List.not_mem_nil, or_false] at hentry
    rcases hentry with rfl | rfl
    · exact operatorHolds_range rfl whole reached low
    · exact operatorHolds_range rfl whole reached high
  | true =>
    have hparts : ∀ f ∈ [under column (.document (under "$lte" low)),
        under column (.document (under "$gte" high))], Evaluates d f := by
      intro f hf
      simp only [List.mem_cons, List.not_mem_nil, or_false] at hf
      rcases hf with rfl | rfl
      · exact evaluates_column hcolumn (readable_range rfl low) d
      · exact evaluates_column hcolumn (readable_range rfl high) d
    exact ⟨_, (holds_singleton d "$or" _).trans ((entryHolds_or d _).trans (anyHolds_ok d hparts))⟩

theorem evaluates_understood {c : Condition} (h : c.Understood) {f : Document}
    (hf : fragment s c = .ok f) (d : Document) : Evaluates d f := by
  cases c with
  | compare column operator l negated => exact evaluates_compare h hf d
  | nested plan | raw filter => exact h.elim
  | between column low high negated =>
    rw [← Except.ok.inj hf]
    exact evaluates_between h.1 _ _ _ d
  | null column =>
    rw [← Except.ok.inj hf]
    exact evaluates_column h (readable_of_isOperand rfl) d
  | notNull column =>
    rw [← Except.ok.inj hf]
    exact evaluates_column h (readable_ne (comparable_of_isOperand rfl)) d
  | oneOf column ls =>
    rw [← Except.ok.inj hf]
    exact evaluates_column h.1 (readable_list (Or.inl rfl) (comparable_prepareAll h.2)) d
  | noneOf column ls =>
    rw [← Except.ok.inj hf]
    exact evaluates_column h.1 (readable_list (Or.inr (Or.inl rfl)) (comparable_prepareAll h.2)) d
  | all column ls =>
    rw [← Except.ok.inj hf]
    exact evaluates_column h.1 (readable_list (Or.inr (Or.inr rfl)) (comparable_prepareAll h.2)) d

theorem evaluates_filter_understood {clauses : List Clause}
    (h : ∀ c ∈ allLeaves clauses, c.Understood) {f : Document} (hf : filter s clauses = .ok f)
    (d : Document) : Evaluates d f := by
  have hraw : RawKeysDistinct clauses := fun f hf => (h _ hf).elim
  have hleaves : LeavesEvaluate s d clauses := fun c hc f hf => evaluates_understood (h c hc) hf d
  exact ⟨_, holds_filter_eq_reading hf hraw hleaves⟩

end Scope

end RelDoc
