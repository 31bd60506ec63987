import RelDoc.Proofs.RoundTrips

namespace RelDoc.Mutation

open Value

variable {column : String} {n : Int64} {extra : Option Literal}

theorem toInt_neg (h : n ≠ Int64.minValue) : (-n).toInt = -n.toInt := by
  have hlow := n.le_toInt
  have hhigh := n.toInt_lt
  have hmin : n.toInt ≠ -2 ^ 63 := fun heq =>
    h (Int64.toInt_inj.mp (heq.trans Int64.toInt_minValue.symm))
  rw [Int64.toInt_neg, Int.bmod_eq_of_le] <;> omega

theorem negated_ofInt64 (h : n ≠ Int64.minValue) : negated (.ofInt64 n) =
    .ok (if n = 2147483648 then .int64 (-n) else .ofInt64 (-n)) := by
  have htop : n = 2147483648 ↔ n.toInt = 2147483648 := Int64.toInt_inj.symm
  simp only [ofInt64, toInt_neg h, htop]
  by_cases hfits : -2147483648 ≤ n.toInt ∧ n.toInt ≤ 2147483647
  · have hsame : (Int32.ofInt n.toInt).toInt = n.toInt :=
      Int32.toInt_ofInt_of_le (by omega) (by omega)
    have hleast : Int32.ofInt n.toInt = Int32.minValue ↔ n.toInt = -2147483648 := by
      rw [← Int32.toInt_inj, hsame]
      rfl
    rw [if_pos hfits, if_neg (by omega), negated]
    by_cases hbottom : n.toInt = -2147483648
    · rw [if_pos (hleast.mpr hbottom), if_neg (by omega), hsame, Int64.ofInt_neg, Int64.ofInt_toInt]
    · rw [if_neg (mt hleast.mp hbottom), if_pos (by omega), Int32.ofInt_neg]
  · rw [if_neg hfits, negated, if_neg h]
    by_cases hhigh : n.toInt = 2147483648
    · rw [if_pos hhigh]
    · rw [if_neg hhigh, if_neg (by omega)]

theorem incrementBy_of_isMap (column : String) (hextra : ∀ l ∈ extra, l.IsMap) :
    ∃ rest, ∀ v, incrementBy column v extra =
      .ok ⟨("$inc", .document [(column, v)]) :: rest, some (incrementable column)⟩ := by
  cases extra with
  | none => exact ⟨[], fun v => rfl⟩
  | some l =>
    obtain ⟨d, hd⟩ := hextra l rfl
    refine ⟨if d.isEmpty then [] else [("$set", .document d)], fun v => ?_⟩
    simp only [incrementBy, columns, hd]
    rfl

theorem int64_ne_ofInt64 : Value.int64 (-2147483648) ≠ .ofInt64 (-2147483648) := nofun

/-- A decrement is the increment by the negated amount, but for an amount of `2 ^ 31`. There the two
differ in the width of what they add, and in nothing else. -/
theorem decrement_eq_increment_iff (hextra : ∀ l ∈ extra, l.IsMap) :
    (n = Int64.minValue →
      decrement column (.integer n) extra = .error (.mutation (.noNegation n))) ∧
    (n ≠ Int64.minValue →
      (decrement column (.integer n) extra = increment column (.integer (-n)) extra ↔
        n ≠ 2147483648) ∧
      ∃ rest, increment column (.integer (-n)) extra =
          .ok ⟨("$inc", .document [(column, .ofInt64 (-n))]) :: rest, some (incrementable column)⟩ ∧
        decrement column (.integer n) extra =
          .ok ⟨("$inc", .document [(column, if n = 2147483648 then .int64 (-n) else .ofInt64 (-n))])
            :: rest, some (incrementable column)⟩) := by
  constructor
  · rintro rfl
    rw [decrement, amount_integer]
    rfl
  · intro hn
    obtain ⟨rest, hby⟩ := incrementBy_of_isMap column hextra
    have hincrement : increment column (.integer (-n)) extra =
        .ok ⟨("$inc", .document [(column, .ofInt64 (-n))]) :: rest, some (incrementable column)⟩ := by
      rw [increment, amount_integer, ← hby]
      rfl
    have hdecrement : decrement column (.integer n) extra =
        .ok ⟨("$inc", .document [(column, if n = 2147483648 then .int64 (-n) else .ofInt64 (-n))])
          :: rest, some (incrementable column)⟩ := by
      rw [decrement, amount_integer, ← hby]
      change (negated (.ofInt64 n)).bind _ = _
      rw [negated_ofInt64 hn]
      rfl
    refine ⟨?_, rest, hincrement, hdecrement⟩
    rw [hincrement, hdecrement]
    by_cases htop : n = 2147483648
    · subst htop
      refine iff_of_false (fun heq => ?_) (not_not_intro rfl)
      simp only [Except.ok.injEq, Mutation.mk.injEq, List.cons.injEq, Prod.mk.injEq,
        Value.document.injEq, true_and, and_true] at heq
      exact int64_ne_ofInt64 heq
    · rw [if_neg htop]
      exact iff_of_true rfl htop

theorem decrement_eq_increment_iff_wide :
    let extra : Option Literal := some (.map [("by", .string "cron")])
    (∀ l ∈ extra, l.IsMap) ∧ (2147483648 : Int64) ≠ Int64.minValue ∧
      decrement "stock" (.integer 2147483648) extra ≠
        increment "stock" (.integer (-2147483648)) extra := by
  intro extra
  have hextra : ∀ l ∈ extra, l.IsMap := by
    intro l hl
    obtain rfl := Option.some.inj hl
    exact ⟨_, rfl⟩
  have hn : (2147483648 : Int64) ≠ Int64.minValue := by decide
  refine ⟨hextra, hn, fun heq => ?_⟩
  exact ((decrement_eq_increment_iff hextra).2 hn).1.mp heq rfl

end RelDoc.Mutation
