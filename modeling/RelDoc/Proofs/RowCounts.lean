import RelDoc.Pipeline.Basic
import RelDoc.Plan.Strategy
import RelDoc.Proofs.IntegerRounding

namespace RelDoc

namespace Decimal

open Float.Model

theorem natural?_of_standsFor {x : Float} {n : Nat} (h : StandsFor n x.toModel.unpack) :
    natural? x = some n := by
  rw [natural?]
  rcases hx : x.toModel.unpack with s | _ | s | ⟨s, m, e, hm⟩
  all_goals rw [hx] at h
  case zero =>
    have hzero : (n : Int) = 0 := h
    have hn : n = 0 := by omega
    rw [hn]
  case finite =>
    have hmantissa := mantissa_of_standsFor h
    rw [Int.natAbs_natCast] at hmantissa
    cases s with
    | negative =>
      have hneg := neg_of_standsFor h
      omega
    | positive =>
      dsimp only
      by_cases hexp : 0 ≤ e
      · have hzero : (-e).toNat = 0 := by omega
        rw [hzero, pow_zero, Nat.mul_one] at hmantissa
        rw [if_pos hexp, Nat.shiftLeft_eq, hmantissa]
      · have hzero : e.toNat = 0 := by omega
        rw [hzero, pow_zero, Nat.mul_one] at hmantissa
        rw [if_neg hexp, Nat.one_shiftLeft, Nat.shiftRight_eq_div_pow, hmantissa, Nat.mul_mod_left,
          if_pos rfl, Nat.mul_div_cancel _ (Nat.two_pow_pos _)]
  all_goals exact h.elim

theorem natural?_nearest {n : Nat} (h : n < 2 ^ 64) : natural? (nearest n) = some (roundedNat n) := by
  apply natural?_of_standsFor
  have hrounded : rounded n = roundedNat n := rounded_of_nonneg (Int.natCast_nonneg n)
  rw [← hrounded]
  exact standsFor_nearest h

theorem le_roundedNat {n : Nat} (h : 2 ^ 53 ≤ n) : 2 ^ 53 ≤ roundedNat n := by
  calc 2 ^ 53 = roundedNat (2 ^ 53) := (roundedNat_eq (Nat.le_refl _)).symm
    _ ≤ roundedNat n := roundedNat_mono h

end Decimal

open Decimal

def countTaken (n : Nat) : Nat := roundedNat (min n (2 ^ 63 - 1))

theorem toInt_ofIntClamp (n : Nat) : (Int64.ofIntClamp n).toInt = (min n (2 ^ 63 - 1) : Nat) := by
  have hmin : Int64.minValue.toInt = -2 ^ 63 := Int64.toInt_minValue
  have hmax : Int64.maxValue.toInt = 2 ^ 63 - 1 := Int64.toInt_maxValue
  by_cases hn : (n : Int) ≤ Int64.maxValue.toInt
  · rw [Int64.toInt_ofIntClamp (by omega) hn]
    omega
  · rw [Int64.ofIntClamp, dif_pos (by omega), dif_neg hn]
    omega

theorem count_countValue (subject : String) (n : Nat) :
    Pipeline.count subject (countValue n) = .ok (countTaken n) := by
  have hlt : min n (2 ^ 63 - 1) < 2 ^ 64 := by omega
  have hnatural : (countValue n).numeric?.bind natural? = some (countTaken n) := by
    change natural? (nearest (Int64.ofIntClamp n).toInt) = _
    rw [toInt_ofIntClamp, natural?_nearest hlt]
    rfl
  have hbound : countTaken n ≤ 2 ^ 63 := by
    calc countTaken n ≤ roundedNat (2 ^ 63) := roundedNat_mono (by omega)
      _ = 2 ^ 63 := by decide +kernel
  have hsize : min (countTaken n) (UInt64.size - 1) = countTaken n := by
    have : UInt64.size = 2 ^ 64 := rfl
    omega
  rw [Pipeline.count, hnatural]
  exact congrArg Except.ok hsize

theorem countTaken_eq {n : Nat} (h : n ≤ 2 ^ 53) : countTaken n = n := by
  have hmin : min n (2 ^ 63 - 1) = n := by omega
  rw [countTaken, hmin, roundedNat_eq h]

theorem le_countTaken {n : Nat} (h : 2 ^ 53 ≤ n) : 2 ^ 53 ≤ countTaken n := by
  apply le_roundedNat
  omega

theorem countTaken_pos {n : Nat} (h : 0 < n) : 0 < countTaken n := by
  rcases Nat.le_total n (2 ^ 53) with hle | hge
  · rwa [countTaken_eq hle]
  · have := le_countTaken hge
    omega

section rows

variable {α : Type} {rows : List α} (h : rows.length < 2 ^ 53) (n : Nat)
include h

theorem drop_countTaken : rows.drop (countTaken n) = rows.drop n := by
  rcases Nat.le_total n (2 ^ 53) with hle | hge
  · rw [countTaken_eq hle]
  · have hmany := le_countTaken hge
    rw [List.drop_eq_nil_of_le (by omega), List.drop_eq_nil_of_le (by omega)]

theorem take_countTaken : rows.take (countTaken n) = rows.take n := by
  rcases Nat.le_total n (2 ^ 53) with hle | hge
  · rw [countTaken_eq hle]
  · have hmany := le_countTaken hge
    rw [List.take_of_length_le (by omega), List.take_of_length_le (by omega)]

end rows

end RelDoc
