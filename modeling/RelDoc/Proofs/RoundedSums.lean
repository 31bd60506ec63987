import RelDoc.Proofs.CountedRows
import RelDoc.Proofs.Increments

namespace RelDoc

namespace Decimal

def addRounded (total n : Int) : Int := rounded (total + rounded n)

def roundedSum (integers : List Int) : Int := integers.foldl addRounded 0

theorem roundedSum_concat (integers : List Int) (n : Int) :
    roundedSum (integers ++ [n]) = addRounded (roundedSum integers) n :=
  List.foldl_concat addRounded 0 n integers

theorem natAbs_rounded (n : Int) : (rounded n).natAbs = roundedNat n.natAbs := by
  by_cases hn : n = 0
  · subst hn
    rfl
  · rw [rounded, Int.natAbs_mul, Int.natAbs_sign_of_ne_zero hn, Nat.one_mul, Int.natAbs_natCast]

theorem natAbs_add_rounded_le {total n : Int} (htotal : total.natAbs ≤ 2 ^ 116)
    (hn : n.natAbs ≤ 2 ^ 63) : (total + rounded n).natAbs ≤ 2 ^ 116 + 2 ^ 63 := by
  have hlargest : roundedNat (2 ^ 63) = 2 ^ 63 :=
    roundedNat_mantissa (m := 2 ^ 52) (Nat.le_refl _) (by decide) 11
  have hrounded : (rounded n).natAbs ≤ 2 ^ 63 := by
    rw [natAbs_rounded, ← hlargest]
    exact roundedNat_mono hn
  exact (Int.natAbs_add_le _ _).trans (Nat.add_le_add htotal hrounded)

theorem natAbs_addRounded_le {total n : Int} (htotal : total.natAbs ≤ 2 ^ 116)
    (hn : n.natAbs ≤ 2 ^ 63) : (addRounded total n).natAbs ≤ 2 ^ 116 := by
  have habsorbed : roundedNat (2 ^ 116 + 2 ^ 63) = 2 ^ 116 := by decide +kernel
  rw [addRounded, natAbs_rounded, ← habsorbed]
  exact roundedNat_mono (natAbs_add_rounded_le htotal hn)

theorem roundedSum_eq {integers : List Int} (hintegers : ∀ n ∈ integers, rounded n = n)
    (hfronts : ∀ front, front <+: integers → rounded front.sum = front.sum) :
    roundedSum integers = integers.sum := by
  induction integers using List.reverseRecOn with
  | nil => rfl
  | append_singleton integers n ih =>
    rw [List.forall_mem_append, List.forall_mem_singleton] at hintegers
    have hfront := ih hintegers.1 fun front h => hfronts front (h.trans (List.prefix_append _ _))
    have hwhole := hfronts _ (List.prefix_refl _)
    rw [List.sum_append, List.sum_singleton] at hwhole ⊢
    rw [roundedSum_concat, addRounded, hfront, hintegers.2, hwhole]

end Decimal

namespace Value

open Decimal

theorem numeric?_of_integer? {v : Value} {n : Int} (h : v.integer? = some n) :
    v.numeric? = some (nearest n) ∧ Grouping.Accumulator.isDouble v = false ∧ n.natAbs ≤ 2 ^ 63 := by
  rcases cases_of_integer? h with ⟨m, rfl, rfl⟩ | ⟨m, rfl, rfl⟩
  · have hlo := m.le_toInt
    have hhi := m.toInt_lt
    exact ⟨rfl, rfl, by omega⟩
  · have hlo := m.le_toInt
    have hhi := m.toInt_lt
    exact ⟨rfl, rfl, by omega⟩

theorem numeric?_eq_none {v : Value} (h : v.integer? = none)
    (hdouble : Grouping.Accumulator.isDouble v = false) : v.numeric? = none := by
  cases v with
  | int32 n => cases h
  | int64 n => cases h
  | double x => cases hdouble
  | _ => rfl

end Value

namespace Grouping.Accumulator

open Decimal

variable {values : List Value}

theorem sums_values (hvalues : ∀ v ∈ values, isDouble v = false) :
    Sums (roundedSum (values.filterMap Value.integer?)) (values.foldl feed (.sum 0.0 true)) ∧
      (roundedSum (values.filterMap Value.integer?)).natAbs ≤ 2 ^ 116 := by
  induction values using List.reverseRecOn with
  | nil => exact ⟨sums_initial, Nat.zero_le _⟩
  | append_singleton values v ih =>
    rw [List.forall_mem_append, List.forall_mem_singleton] at hvalues
    obtain ⟨hsums, hbound⟩ := ih hvalues.1
    rw [List.foldl_append, List.foldl_cons, List.foldl_nil, List.filterMap_append]
    rcases hv : v.integer? with _ | n
    · have hunchanged : (values.foldl feed (.sum 0.0 true)).feed v =
          values.foldl feed (.sum 0.0 true) := by
        obtain ⟨total, hacc, -⟩ := hsums
        rw [hacc, feed, Value.numeric?_eq_none hv hvalues.2]
      rw [List.filterMap_cons_none hv, List.filterMap_nil, List.append_nil, hunchanged]
      exact ⟨hsums, hbound⟩
    · obtain ⟨hnumeric, hinteger, hn⟩ := Value.numeric?_of_integer? hv
      have hadd := natAbs_add_rounded_le hbound hn
      have hdouble := standsFor_nearest (n := n) (by omega)
      rw [List.filterMap_cons_some hv, List.filterMap_nil, roundedSum_concat]
      exact ⟨hsums.feed_rounded hnumeric hinteger hdouble (by omega), natAbs_addRounded_le hbound hn⟩

/-- A sum of integers is the rounded one, as long as that has 63 digits. So where the exact sum has 64
bits it is what comes out if nothing was lost by rounding, and if it is not the least of these. -/
theorem sum_of_integers (hvalues : ∀ v ∈ values, isDouble v = false) :
    let integers := values.filterMap Value.integer?
    ∃ start, initial "$sum" = .ok start ∧
      let answer := (values.foldl feed start).finish
      (∃ x, StandsFor (roundedSum integers) x.toModel.unpack ∧
        answer = if (roundedSum integers).natAbs < 2 ^ 63 then .int64 (.ofInt (roundedSum integers))
          else .double x) ∧
      (Value.Fits integers.sum → (answer = .int64 (.ofInt integers.sum) ↔
        roundedSum integers = integers.sum ∧ integers.sum ≠ -2 ^ 63)) ∧
      ((∀ n ∈ integers, rounded n = n) →
        (∀ front, front <+: integers → rounded front.sum = front.sum) →
          integers.sum.natAbs < 2 ^ 63 → answer = .int64 (.ofInt integers.sum)) := by
  intro integers
  obtain ⟨hsums, -⟩ := sums_values hvalues
  obtain ⟨x, hx, hfinish⟩ := hsums.finish_eq
  have hfits {n : Int} (h : n.natAbs < 2 ^ 63) : (Int64.ofInt n).toInt = n :=
    Int64.toInt_ofInt_of_le (by omega) (by omega)
  refine ⟨_, rfl, ⟨x, hx, hfinish⟩, fun hsum => ?_, fun hintegers hfronts hsum => ?_⟩
  · rw [hfinish]
    obtain ⟨hlo, hhi⟩ := hsum
    split
    case isTrue hsmall =>
      rw [Value.int64.injEq, ← Int64.toInt_inj, hfits hsmall, Int64.toInt_ofInt_of_le hlo hhi]
      constructor
      · intro h
        exact ⟨h, by omega⟩
      · exact And.left
    case isFalse hlarge =>
      constructor
      · intro h
        cases h
      · rintro ⟨heq, hne⟩
        exact absurd (by rw [heq]; omega) hlarge
  · have hexact := roundedSum_eq hintegers hfronts
    change Accumulator.finish _ = _
    rw [hfinish, hexact, if_pos hsum]

theorem sum_of_integers_lossy :
    let values : List Value := [.int64 9007199254740992, .null, .string "x", .int64 1]
    let sum := (values.filterMap Value.integer?).sum
    (∀ v ∈ values, isDouble v = false) ∧ sum = 9007199254740993 ∧ Value.Fits sum ∧
      ∃ start, initial "$sum" = .ok start ∧
        (values.foldl feed start).finish ≠ .int64 (.ofInt sum) ∧
        ∃ x, (([.int64 Int64.minValue] : List Value).foldl feed start).finish = .double x := by
  intro values sum
  have hvalues : ∀ v ∈ values, isDouble v = false := by decide
  have hleast : ∀ v ∈ ([.int64 Int64.minValue] : List Value), isDouble v = false := by decide
  have hsum : sum = 9007199254740993 := by decide
  have hfits : Value.Fits sum := by
    rw [hsum, Value.Fits]
    decide
  have hrounded : roundedSum [9007199254740992, 1] ≠ 9007199254740993 := by decide +kernel
  obtain ⟨start, hstart, -, hexact, -⟩ := sum_of_integers hvalues
  obtain ⟨start', hstart', ⟨x, -, hanswer⟩, -⟩ := sum_of_integers hleast
  obtain rfl := Except.ok.inj (hstart.symm.trans hstart')
  refine ⟨hvalues, hsum, hfits, start, hstart, fun h => hrounded ?_, x, ?_⟩
  · exact ((hexact hfits).mp h).1.trans hsum
  · rw [hanswer]
    exact if_neg (by decide +kernel)

end Grouping.Accumulator

end RelDoc
