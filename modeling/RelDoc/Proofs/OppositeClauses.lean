import RelDoc.Proofs.FieldConditions

namespace RelDoc

def Operator.negatedPattern? : Operator → Option Operator
  | .like => some .notLike
  | .regex => some .notRegex
  | _ => none

namespace Filter

open Scope

variable (reached : List Value)

theorem conditionHolds_not (condition : Value) :
    conditionHolds reached (.document (under "$not" condition)) =
      (conditionHolds reached condition).map (!·) := by
  have hnot : isOperator "$not" = true := rfl
  have hops : Document.isOperators [("$not", condition)] = true := hnot
  rw [under, conditionHolds, if_pos hops, operatorsHold_singleton, operatorHolds_not]

theorem conditionHolds_ne (v : Value) :
    conditionHolds reached (.document (under "$ne" v)) = (equalsAny reached v).map (!·) :=
  conditionHolds_operator rfl (by decide) (by decide) reached v

theorem conditionHolds_unequal {v : Value} (hv : Collection.hasOperators v = false) :
    conditionHolds reached (unequal v) = (conditionHolds reached v).map (!·) := by
  cases v with
  | regex pattern options => exact conditionHolds_not reached _
  | document fields =>
    have hplain : ¬Document.isOperators fields = true := by
      rw [Bool.not_eq_true]
      exact hv
    rw [conditionHolds, if_neg hplain]
    exact conditionHolds_ne reached _
  | _ => exact conditionHolds_ne reached _

theorem conditionHolds_negated {op : Operator} {v : Value}
    (hv : op.nativeKey? = none → Collection.hasOperators v = false) :
    conditionHolds reached (compareWith op true v) =
      (conditionHolds reached (compareWith op false v)).map (!·) := by
  rcases hkey : op.nativeKey? with _ | key
  · have halone : compareWith op false v = v ∧ compareWith op true v = unequal v := by
      simp [compareWith, hkey]
    rw [halone.1, halone.2, conditionHolds_unequal reached (hv hkey)]
  · rcases hnegated : op.isNegatedPattern with _ | _
    · have hnot : compareWith op true v =
          .document (under "$not" (compareWith op false v)) := by
        simp [compareWith, hkey, hnegated]
      rw [hnot, conditionHolds_not]
    · have hnot : compareWith op false v =
          .document (under "$not" (compareWith op true v)) := by
        cases op <;> first | rfl | cases hnegated
      rw [hnot, conditionHolds_not]
      rcases conditionHolds reached (compareWith op true v) with e | b
      · rfl
      · exact congrArg Except.ok (Bool.not_not b).symm

theorem equalsAny_of_regex {pattern options : String} {b : Bool}
    (h : conditionHolds reached (.document (under "$regex" (.regex pattern options))) = .ok b) :
    equalsAny reached (.regex pattern options) = .ok b := by
  rw [under, conditionHolds_operator rfl (by decide) (by decide)] at h
  change (regex pattern options).map (fun p => anyValue (foundIn p) reached) = .ok b at h
  rcases hregex : regex pattern options with e | p
  · rw [hregex] at h
    cases h
  · rw [hregex] at h
    -- Equality does not even read the expression where nothing is reached.
    cases reached with
    | nil => exact h
    | cons first rest =>
      rw [equalsAny, hregex]
      · exact h
      · simp

end Filter

namespace Scope

open RelDoc.Filter

variable {s : Settings} {column : String} {l : Literal}

/-- Two conditions are refused with the same error, or wherever the first has a truth value, the second
has the opposite one. -/
def Opposite (s : Settings) (c c' : Condition) : Prop :=
  (∃ e, filter s [⟨.and, c⟩] = .error e ∧ filter s [⟨.and, c'⟩] = .error e) ∨
    ∃ f g, filter s [⟨.and, c⟩] = .ok f ∧ filter s [⟨.and, c'⟩] = .ok g ∧
      ∀ d b, holds d f = .ok b → holds d g = .ok !b

theorem filter_error {c : Condition} {e : QueryError} (h : fragment s c = .error e) :
    filter s [⟨.and, c⟩] = .error e := by
  rw [filter, compile, fragments, h]
  rfl

theorem fragment_compare {operator : String} {op : Operator}
    (hop : Operator.parse operator = .ok op) (negated : Bool) :
    fragment s (.compare column operator l negated) =
      (operand op (prepare s column l)).map fun v => under column (compareWith op negated v) := by
  rw [fragment, compareFragment, hop]
  change (operand op (prepare s column l)).bind _ = _
  rcases operand op (prepare s column l) with e | v <;> rfl

theorem opposite_of_conditionHolds (hcolumn : isOperator column = false)
    {operator operator' : String} {op op' : Operator} {negated negated' : Bool}
    (hop : Operator.parse operator = .ok op) (hop' : Operator.parse operator' = .ok op')
    (hoperand : operand op (prepare s column l) = operand op' (prepare s column l))
    (h : ∀ v, operand op (prepare s column l) = .ok v → ∀ reached b,
      conditionHolds reached (compareWith op negated v) = .ok b →
        conditionHolds reached (compareWith op' negated' v) = .ok !b) :
    Opposite s (.compare column operator l negated) (.compare column operator' l negated') := by
  have hfragment : fragment s (.compare column operator l negated) = _ :=
    fragment_compare hop negated
  have hfragment' : fragment s (.compare column operator' l negated') = _ :=
    fragment_compare hop' negated'
  rw [← hoperand] at hfragment'
  rcases hv : operand op (prepare s column l) with e | v
  · rw [hv] at hfragment hfragment'
    exact Or.inl ⟨e, filter_error hfragment, filter_error hfragment'⟩
  · rw [hv] at hfragment hfragment'
    refine Or.inr ⟨_, _, filter_column hcolumn hfragment, filter_column hcolumn hfragment', ?_⟩
    intro d b hb
    rw [holds_column d hcolumn] at hb ⊢
    exact h v hv _ b hb

theorem operand_eq_regex {op : Operator} (hop : op = .like ∨ op = .regex) {v w : Value}
    (hw : operand op v = .ok w) : ∃ pattern options, w = .regex pattern options := by
  rcases hop with rfl | rfl
  · change Pattern.Like.regex v = .ok w at hw
    rw [Pattern.Like.regex] at hw
    split at hw
    · exact ⟨_, _, (Except.ok.inj hw).symm⟩
    · cases hw
  · change Pattern.Delimited.regex v = .ok w at hw
    unfold Pattern.Delimited.regex at hw
    split at hw
    · exact ⟨_, _, (Except.ok.inj hw).symm⟩
    · split at hw
      · exact ⟨_, _, (Except.ok.inj hw).symm⟩
      · cases hw
    · cases hw

theorem hasOperators_operand {op : Operator} (hkey : op.nativeKey? = none) {v w : Value}
    (hv : op = .eq → Collection.hasOperators v = false) (hw : operand op v = .ok w) :
    Collection.hasOperators w = false := by
  cases op with
  | eq =>
    rw [← Except.ok.inj hw]
    exact hv rfl
  | like =>
    obtain ⟨pattern, options, rfl⟩ := operand_eq_regex (Or.inl rfl) hw
    rfl
  | _ => cases hkey

/-- A comparison and its negation are opposite, for every operator; an operand of `=` must not be read as
operators itself. A pattern operator and its negated form are opposite as well. -/
theorem negated_comparisons_opposite (hcolumn : isOperator column = false) :
    (∀ operator op, Operator.parse operator = .ok op →
      (op = .eq → Collection.hasOperators (prepare s column l) = false) →
        Opposite s (.compare column operator l false) (.compare column operator l true)) ∧
    ∀ positive negative op op', Operator.parse positive = .ok op →
      Operator.parse negative = .ok op' → op.negatedPattern? = some op' →
        Opposite s (.compare column positive l false) (.compare column negative l false) := by
  constructor
  · intro operator op hop hplain
    refine opposite_of_conditionHolds hcolumn hop hop rfl fun v hv reached b hb => ?_
    have hnative (hkey : op.nativeKey? = none) := hasOperators_operand hkey hplain hv
    rw [conditionHolds_negated reached hnative, hb]
    rfl
  · intro positive negative op op' hop hop' hpattern
    cases op with
    | like =>
      obtain rfl := Option.some.inj hpattern
      refine opposite_of_conditionHolds hcolumn hop hop' rfl fun v hv reached b hb => ?_
      have hnot : compareWith .notLike false v = .document (under "$not" v) := rfl
      have hself : compareWith .like false v = v := rfl
      rw [hself] at hb
      rw [hnot, conditionHolds_not, hb]
      rfl
    | regex =>
      obtain rfl := Option.some.inj hpattern
      refine opposite_of_conditionHolds hcolumn hop hop' rfl fun v hv reached b hb => ?_
      obtain ⟨pattern, options, rfl⟩ := operand_eq_regex (Or.inr rfl) hv
      have hequal := equalsAny_of_regex reached hb
      have hnot : compareWith .notRegex false (.regex pattern options) =
          .document (under "$not" (.regex pattern options)) := rfl
      rw [hnot, conditionHolds_not, conditionHolds, hequal]
      · rfl
      · simp
    | _ => cases hpattern

theorem negated_comparisons_opposite_tags :
    let d : Document := [("_id", .int32 1), ("tags", .array [.int32 3, .string "math"])]
    isOperator "tags" = false ∧ Operator.parse " <> " = .ok .ne ∧
      Operator.parse "$Regexp" = .ok .regex ∧ Operator.parse "NOT regex" = .ok .notRegex ∧
      (∃ f g, filter .standard [⟨.and, .compare "tags" " <> " (.integer 3) false⟩] = .ok f ∧
        filter .standard [⟨.and, .compare "tags" " <> " (.integer 3) true⟩] = .ok g ∧
        holds d f = .ok false ∧ holds d g = .ok true) ∧
      Opposite .standard (.compare "tags" "$Regexp" (.string "/^M/i") false)
        (.compare "tags" "NOT regex" (.string "/^M/i") false) := by
  intro d
  have hcolumn : isOperator "tags" = false := by decide
  have hne : Operator.parse " <> " = .ok .ne := by decide
  have hregex : Operator.parse "$Regexp" = .ok .regex := by decide
  have hnotRegex : Operator.parse "NOT regex" = .ok .notRegex := by decide
  refine ⟨hcolumn, hne, hregex, hnotRegex, ?_,
    (negated_comparisons_opposite hcolumn).2 _ _ _ _ hregex hnotRegex rfl⟩
  have hopposite := (negated_comparisons_opposite (s := .standard) (l := .integer 3) hcolumn).1
  rcases hopposite " <> " .ne hne nofun with
    ⟨e, he, -⟩ | ⟨f, g, hf, hg, hopposite⟩
  · cases he
  · have hd : holds d f = .ok false := by
      rw [← Except.ok.inj hf]
      rfl
    exact ⟨f, g, hf, hg, hd, hopposite d false hd⟩

end Scope

end RelDoc
