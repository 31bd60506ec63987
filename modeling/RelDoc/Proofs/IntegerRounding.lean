import Mathlib
import RelDoc.Proofs.LooseEquality

/-!
Integers as doubles. An integer of more than 53 binary digits is rounded to the nearest number of 53
digits and some zeros, of two that are equally near to the one whose last digit is zero. The doubles of
integers compare as the rounded integers do.
-/

namespace RelDoc.Decimal

open Float.Model Float.Model.UnpackedFloat

def nearestQuotient (n k : Nat) : Nat :=
  if 2 * (n % 2 ^ k) < 2 ^ k ∨ 2 * (n % 2 ^ k) = 2 ^ k ∧ n / 2 ^ k % 2 = 0 then n / 2 ^ k
  else n / 2 ^ k + 1

def excess (n : Nat) : Nat := n.log2 - 52

def roundedNat (n : Nat) : Nat := nearestQuotient n (excess n) * 2 ^ excess n

/-- An integer rounded to 53 binary digits. -/
def rounded (n : Int) : Int := n.sign * roundedNat n.natAbs

theorem nearestQuotient_zero (n : Nat) : nearestQuotient n 0 = n := by
  have hmod : n % 2 ^ 0 = 0 := Nat.mod_one n
  rw [nearestQuotient, hmod, if_pos (by omega), pow_zero, Nat.div_one]

theorem nearestQuotient_mul (m k : Nat) : nearestQuotient (m * 2 ^ k) k = m := by
  have hpos : 0 < 2 ^ k := Nat.two_pow_pos k
  have hmod : m * 2 ^ k % 2 ^ k = 0 := Nat.mul_mod_left m (2 ^ k)
  rw [nearestQuotient, hmod, if_pos (by omega), Nat.mul_div_cancel m hpos]

theorem nearestQuotient_bounds (n k : Nat) :
    n / 2 ^ k ≤ nearestQuotient n k ∧ nearestQuotient n k ≤ n / 2 ^ k + 1 := by
  rw [nearestQuotient]
  split <;> omega

theorem nearestQuotient_mono {m n : Nat} (k : Nat) (h : m ≤ n) :
    nearestQuotient m k ≤ nearestQuotient n k := by
  have hquotient : m / 2 ^ k ≤ n / 2 ^ k := Nat.div_le_div_right h
  have hm : 2 ^ k * (m / 2 ^ k) + m % 2 ^ k = m := Nat.div_add_mod m (2 ^ k)
  have hn : 2 ^ k * (n / 2 ^ k) + n % 2 ^ k = n := Nat.div_add_mod n (2 ^ k)
  rcases Nat.lt_or_eq_of_le hquotient with hlt | heq
  · have hupper := (nearestQuotient_bounds m k).2
    have hlower := (nearestQuotient_bounds n k).1
    omega
  · rw [← heq] at hn
    have hrest : m % 2 ^ k ≤ n % 2 ^ k := by omega
    rw [nearestQuotient, nearestQuotient, ← heq]
    split <;> split <;> omega

theorem le_nearestQuotient {n : Nat} (h : 52 ≤ n.log2) :
    2 ^ 52 ≤ nearestQuotient n (excess n) := by
  have hne : n ≠ 0 := by
    rintro rfl
    exact absurd h (by decide)
  have hlog : 2 ^ 52 * 2 ^ excess n = 2 ^ n.log2 := by
    rw [← pow_add, excess, Nat.add_sub_cancel' h]
  have hdiv : 2 ^ 52 ≤ n / 2 ^ excess n := by
    rw [Nat.le_div_iff_mul_le (Nat.two_pow_pos _), hlog]
    exact Nat.log2_self_le hne
  exact hdiv.trans (nearestQuotient_bounds n _).1

theorem nearestQuotient_le (n : Nat) : nearestQuotient n (excess n) ≤ 2 ^ 53 := by
  have hlog : 2 ^ (n.log2 + 1) ≤ 2 ^ 53 * 2 ^ excess n := by
    rw [← pow_add, excess]
    exact Nat.pow_le_pow_right (by omega) (by omega)
  have hdiv : n / 2 ^ excess n < 2 ^ 53 := by
    rw [Nat.div_lt_iff_lt_mul (Nat.two_pow_pos _)]
    exact Nat.lt_of_lt_of_le Nat.lt_log2_self hlog
  have := (nearestQuotient_bounds n (excess n)).2
  omega

theorem log2_mono {m n : Nat} (h : m ≤ n) : m.log2 ≤ n.log2 := by
  rcases Nat.eq_zero_or_pos m with rfl | hpos
  · exact Nat.zero_le _
  · have hself : 2 ^ m.log2 ≤ m := Nat.log2_self_le (by omega)
    exact (Nat.le_log2 (by omega)).mpr (hself.trans h)

theorem roundedNat_mono {m n : Nat} (h : m ≤ n) : roundedNat m ≤ roundedNat n := by
  have hlog : m.log2 ≤ n.log2 := log2_mono h
  rcases Nat.lt_or_ge (excess m) (excess n) with hlt | hge
  · have hn : 52 ≤ n.log2 := by
      rw [excess, excess] at hlt
      omega
    calc roundedNat m ≤ 2 ^ 53 * 2 ^ excess m := Nat.mul_le_mul_right _ (nearestQuotient_le m)
      _ = 2 ^ 52 * 2 ^ (excess m + 1) := by ring
      _ ≤ roundedNat n :=
          Nat.mul_le_mul (le_nearestQuotient hn) (Nat.pow_le_pow_right (by omega) hlt)
  · have heq : excess m = excess n := by
      rw [excess, excess] at hge ⊢
      omega
    rw [roundedNat, roundedNat, heq]
    exact Nat.mul_le_mul_right _ (nearestQuotient_mono _ h)

theorem roundedNat_eq {n : Nat} (h : n ≤ 2 ^ 53) : roundedNat n = n := by
  rcases Nat.lt_or_eq_of_le h with hlt | rfl
  · have hlog : n.log2 ≤ (2 ^ 53 - 1 : Nat).log2 := log2_mono (by omega)
    have hexcess : excess n = 0 := Nat.sub_eq_zero_of_le hlog
    rw [roundedNat, hexcess, nearestQuotient_zero, pow_zero, Nat.mul_one]
  · have hexcess : excess (2 ^ 53) = 1 := by rw [excess, Nat.log2_two_pow]
    rw [roundedNat, hexcess]
    rfl

theorem rounded_eq {n : Int} (h : n.natAbs ≤ 2 ^ 53) : rounded n = n := by
  rw [rounded, roundedNat_eq h, Int.sign_mul_natAbs]

theorem rounded_of_nonneg {n : Int} (h : 0 ≤ n) : rounded n = roundedNat n.natAbs := by
  rcases Int.le_iff_eq_or_lt.mp h with rfl | hpos
  · rfl
  · rw [rounded, Int.sign_eq_one_of_pos hpos, one_mul]

theorem rounded_of_neg {n : Int} (h : n < 0) : rounded n = -roundedNat n.natAbs := by
  rw [rounded, Int.sign_eq_neg_one_of_neg h, neg_one_mul]

theorem rounded_mono {a b : Int} (h : a ≤ b) : rounded a ≤ rounded b := by
  rcases lt_or_ge a 0 with ha | ha
  · rw [rounded_of_neg ha]
    rcases lt_or_ge b 0 with hb | hb
    · have hmono := roundedNat_mono (show b.natAbs ≤ a.natAbs by omega)
      rw [rounded_of_neg hb]
      omega
    · rw [rounded_of_nonneg hb]
      omega
  · have hmono := roundedNat_mono (show a.natAbs ≤ b.natAbs by omega)
    rw [rounded_of_nonneg ha, rounded_of_nonneg (ha.trans h)]
    omega

theorem shiftRight_exact (m k : Nat) :
    ExtendedMantissa.ofMantissaAndAccuracy m .exact >>> k =
      ⟨m / 2 ^ k, decide (2 ^ k ≤ 2 * (m % 2 ^ k)),
        decide (m % 2 ^ k ≠ 0 ∧ 2 * (m % 2 ^ k) ≠ 2 ^ k)⟩ := by
  induction k with
  | zero =>
    have hmod : m % 2 ^ 0 = 0 := Nat.mod_one m
    rw [hmod, pow_zero, Nat.div_one]
    rfl
  | succ k ih =>
    have hpos : 0 < 2 ^ k := Nat.two_pow_pos k
    have hlt : m % 2 ^ k < 2 ^ k := Nat.mod_lt m hpos
    have hmod : m % 2 ^ (k + 1) = m % 2 ^ k + 2 ^ k * (m / 2 ^ k % 2) := Nat.mod_pow_succ
    have hpow : 2 ^ (k + 1) = 2 * 2 ^ k := Nat.pow_succ'
    change ExtendedMantissa.shiftRightOne (ExtendedMantissa.ofMantissaAndAccuracy m .exact >>> k) = _
    rw [ih, ExtendedMantissa.shiftRightOne, hmod, hpow]
    rw [ExtendedMantissa.mk.injEq]
    refine ⟨?_, ?_, ?_⟩
    · rw [Nat.div_div_eq_div_mul, Nat.mul_comm]
    · rcases Nat.mod_two_eq_zero_or_one (m / 2 ^ k) with h | h
      · rw [h]
        simp
        omega
      · rw [h]
        simp
    · rcases Nat.mod_two_eq_zero_or_one (m / 2 ^ k) with h | h
      all_goals
        rw [h, ← Bool.decide_or, decide_eq_decide]
        omega

theorem roundedMantissa_shiftRight (m k : Nat) :
    (ExtendedMantissa.ofMantissaAndAccuracy m .exact >>> k).roundedMantissa =
      nearestQuotient m k := by
  have hpos : 0 < 2 ^ k := Nat.two_pow_pos k
  rw [shiftRight_exact, nearestQuotient]
  by_cases hround : 2 ^ k ≤ 2 * (m % 2 ^ k)
  · by_cases htie : 2 * (m % 2 ^ k) = 2 ^ k
    · rw [decide_eq_true hround, decide_eq_false (by omega)]
      change m / 2 ^ k + m / 2 ^ k % 2 = _
      split <;> omega
    · rw [decide_eq_true hround, decide_eq_true (by omega), if_neg (by omega)]
      rfl
  · rw [decide_eq_false hround, if_pos (by omega)]
    cases decide (m % 2 ^ k ≠ 0 ∧ 2 * (m % 2 ^ k) ≠ 2 ^ k) <;> rfl

theorem log2_eq {n k : Nat} (hlo : 2 ^ k ≤ n) (hhi : n < 2 ^ (k + 1)) : n.log2 = k := by
  have hpos : 0 < n := Nat.lt_of_lt_of_le (Nat.two_pow_pos k) hlo
  exact (Nat.log2_eq_iff (by omega)).mpr ⟨hlo, hhi⟩

theorem targetExponent_eq {m : Nat} {e : Int} (h : -1074 ≤ (m.log2 : Int) + e - 52) :
    Format.binary64.targetExponent (totalExponent m e) = m.log2 + e - 52 := by
  change max ((m.log2 : Int) + 1 + e - 53) (3 - 2 ^ 10 - 53) = _
  omega

theorem shiftToTargetExponent_exact {q : Nat} {e : Int} (hlo : 2 ^ 52 ≤ q) (hhi : q ≤ 2 ^ 53)
    (he : -52 ≤ e) : ∃ m f, (shiftToTargetExponent .binary64 q e .exact).1.mantissa = m ∧
      (shiftToTargetExponent .binary64 q e .exact).2 = f ∧ 2 ^ 52 ≤ m ∧ m < 2 ^ 53 ∧ -52 ≤ f ∧
        f ≤ e + 1 ∧ m * 2 ^ (f + 52).toNat = q * 2 ^ (e + 52).toNat := by
  rcases Nat.lt_or_eq_of_le hhi with hlt | rfl
  · have hlog : q.log2 = 52 := log2_eq hlo hlt
    have htarget := targetExponent_eq (m := q) (e := e) (by omega)
    have hshift : (Format.binary64.targetExponent (totalExponent q e) - e).toNat = 0 := by
      rw [htarget]
      omega
    rw [shiftToTargetExponent, shiftToExponent, hshift]
    refine ⟨q, e, rfl, ?_, hlo, hlt, he, by omega, rfl⟩
    simp
  · have hlog : (2 ^ 53 : Nat).log2 = 53 := Nat.log2_two_pow
    have htarget := targetExponent_eq (m := 2 ^ 53) (e := e) (by omega)
    have hshift :
        (Format.binary64.targetExponent (totalExponent (2 ^ 53) e) - e).toNat = 1 := by
      rw [htarget]
      omega
    rw [shiftToTargetExponent, shiftToExponent, hshift]
    refine ⟨2 ^ 52, e + 1, rfl, by simp, Nat.le_refl _, by decide, by omega, Int.le_refl _, ?_⟩
    have hexp : (e + 1 + 52).toNat = (e + 52).toNat + 1 := by omega
    rw [hexp]
    ring

def aligned (n : Nat) : Nat := n * 2 ^ (52 - n.log2)

theorem log2_aligned {n : Nat} (hn : 0 < n) : (aligned n).log2 = n.log2 + (52 - n.log2) := by
  have hlo : 2 ^ n.log2 ≤ n := Nat.log2_self_le (by omega)
  have hhi : n < 2 ^ (n.log2 + 1) := Nat.lt_log2_self
  have hpos : 0 < 2 ^ (52 - n.log2) := Nat.two_pow_pos _
  apply log2_eq
  · rw [pow_add]
    exact Nat.mul_le_mul_right _ hlo
  · rw [Nat.add_right_comm, pow_add]
    exact Nat.mul_lt_mul_of_pos_right hhi hpos

theorem round_aligned (s : Sign) (n : Nat) : round .binary64 s n 0 =
    roundWithAccuracy .binary64 s (aligned n) (-(52 - n.log2 : Nat)) .exact := by
  have htarget := targetExponent_eq (m := n) (e := 0) (by omega)
  have hshift : (0 - ((n.log2 : Int) + 0 - 52)).toNat = 52 - n.log2 := by omega
  rw [UnpackedFloat.round, htarget, decreaseExponent, hshift, Nat.shiftLeft_eq, zero_sub]
  rfl

theorem shift_aligned {n : Nat} (hn : 0 < n) :
    shiftToTargetExponent .binary64 (aligned n) (-(52 - n.log2 : Nat)) .exact =
      (ExtendedMantissa.ofMantissaAndAccuracy (aligned n) .exact >>> excess n,
        (n.log2 : Int) - 52) := by
  have hlog := log2_aligned hn
  have htarget := targetExponent_eq (m := aligned n) (e := -(52 - n.log2 : Nat)) (by omega)
  have hshift : ((aligned n).log2 + -((52 - n.log2 : Nat) : Int) - 52 -
      -(52 - n.log2 : Nat)).toNat = excess n := by
    rw [excess]
    omega
  have hexp : -((52 - n.log2 : Nat) : Int) + (excess n : Nat) = n.log2 - 52 := by
    rw [excess]
    omega
  rw [shiftToTargetExponent, shiftToExponent, htarget, hshift, hexp]

theorem excess_aligned {n : Nat} (hn : 0 < n) : excess (aligned n) = excess n := by
  rw [excess, excess, log2_aligned hn]
  omega

theorem nearestQuotient_aligned (n : Nat) :
    nearestQuotient (aligned n) (excess n) * 2 ^ n.log2 = roundedNat n * 2 ^ 52 := by
  rcases Nat.lt_or_ge 52 n.log2 with hlog | hlog
  · have haligned : aligned n = n := by
      rw [aligned, Nat.sub_eq_zero_of_le (by omega), pow_zero, Nat.mul_one]
    have hexp : excess n + 52 = n.log2 := Nat.sub_add_cancel (by omega)
    rw [haligned, roundedNat, Nat.mul_assoc, ← pow_add, hexp]
  · have hexcess : excess n = 0 := Nat.sub_eq_zero_of_le hlog
    rw [roundedNat, hexcess, nearestQuotient_zero, nearestQuotient_zero, pow_zero, Nat.mul_one,
      aligned, Nat.mul_assoc, ← pow_add, Nat.sub_add_cancel hlog]

theorem round_eq {n : Nat} (s : Sign) (hn : 0 < n) : ∃ m e h,
    round .binary64 s n 0 = .finite s m e h ∧ 2 ^ 52 ≤ m ∧ m < 2 ^ 53 ∧ -52 ≤ e ∧
      e ≤ n.log2 - 51 ∧ m * 2 ^ (e + 52).toNat = roundedNat n * 2 ^ 52 := by
  have hlo : 2 ^ 52 ≤ nearestQuotient (aligned n) (excess n) := by
    rw [← excess_aligned hn]
    apply le_nearestQuotient
    rw [log2_aligned hn]
    omega
  have hhi : nearestQuotient (aligned n) (excess n) ≤ 2 ^ 53 := by
    rw [← excess_aligned hn]
    exact nearestQuotient_le (aligned n)
  obtain ⟨m, e, hm, he, hmlo, hmhi, helo, hehi, hprod⟩ :=
    shiftToTargetExponent_exact (e := n.log2 - 52) hlo hhi (by omega)
  have hlog : ((n.log2 : Int) - 52 + 52).toNat = n.log2 := by omega
  have hne : m ≠ 0 := by
    have := Nat.two_pow_pos 52
    omega
  refine ⟨m, e, Nat.pos_of_ne_zero hne, ?_, hmlo, hmhi, helo, by omega, ?_⟩
  · rw [round_aligned s n, roundWithAccuracy, shift_aligned hn]
    dsimp only
    rw [roundedMantissa_shiftRight]
    simp only [hm, he, hne, dite_false]
  · rw [hprod, hlog, nearestQuotient_aligned]

theorem toNat_implicit {m : Nat} (hlo : 2 ^ 52 ≤ m) (hhi : m < 2 ^ 53) :
    (1#1 ++ BitVec.ofNat 52 m).toNat = m := by
  have hmod : m % 2 ^ 52 = m - 2 ^ 52 := by omega
  have hone : (1#1).toNat = 1 := rfl
  rw [BitVec.toNat_append, BitVec.toNat_ofNat m 52, hmod, ← Nat.shiftLeft_add_eq_or_of_lt (by omega)]
  rw [hone, Nat.one_shiftLeft, Nat.add_sub_of_le hlo]

theorem unpack_pack {s : Sign} {m : Nat} {e : Int} {h : 0 < m} (hlo : 2 ^ 52 ≤ m)
    (hhi : m < 2 ^ 53) (helo : -52 ≤ e) (hehi : e ≤ 900) :
    UnpackedFloat.unpack .binary64 (UnpackedFloat.pack .binary64 (.finite s m e h)) =
      .finite s m e h := by
  have hlog : m.log2 = 52 := log2_eq hlo hhi
  obtain ⟨k, hk⟩ : ∃ k : Nat, e + 1075 = k := Int.eq_ofNat_of_zero_le (by omega)
  have hbits : UnpackedFloat.pack .binary64 (.finite s m e h) =
      packComponents .binary64 s (BitVec.ofNat 11 k) (BitVec.ofNat 52 m) := by
    have hbiased : (e + (Format.binary64.exponentBias : Nat) + (52 : Nat)).toNat = k := by
      change (e + (1023 : Nat) + (52 : Nat)).toNat = k
      omega
    rw [UnpackedFloat.pack, hbiased, if_neg (by change ¬ 2 ^ 11 ≤ k + 1; omega),
      if_pos (by rw [hlog]; rfl)]
  have htoNat : (BitVec.ofNat 11 k).toNat = k := by
    rw [BitVec.toNat_ofNat, Nat.mod_eq_of_lt (by omega)]
  have hones : BitVec.ofNat 11 k ≠ -1#11 := by
    apply BitVec.toNat_ne.mpr
    rw [htoNat]
    change k ≠ 2047
    omega
  have hzero : BitVec.ofNat 11 k ≠ 0#11 := by
    apply BitVec.toNat_ne.mpr
    rw [htoNat]
    change k ≠ 0
    omega
  have hexp : (k : Int) - ((Format.binary64.exponentBias : Nat) + (52 : Nat)) = e := by
    change (k : Int) - ((1023 : Nat) + (52 : Nat)) = e
    omega
  simp only [hbits, UnpackedFloat.unpack, unpackExponent_packComponents,
    unpackMantissa_packComponents, unpackSign_packComponents, Sign.ofBitVec_toBitVec]
  rw [if_neg hones, if_neg hzero]
  simp only [htoNat, hexp, toNat_implicit hlo hhi]

def StandsFor (n : Int) : UnpackedFloat → Prop
  | .zero _ => n = 0
  | .finite s m e _ => 2 ^ 52 ≤ m ∧ m < 2 ^ 53 ∧ -52 ≤ e ∧
      s.apply (m * 2 ^ (e + 52).toNat : Nat) = n * 2 ^ 52
  | _ => False

theorem ofInt_eq_round {n : Int} (hn : n ≠ 0) : ∃ s : Sign,
    UnpackedFloat.ofInt .binary64 n = round .binary64 s n.natAbs 0 ∧
      ∀ k : Int, s.apply k = n.sign * k := by
  rw [UnpackedFloat.ofInt, UnpackedFloat.normalize]
  rcases lt_or_gt_of_ne hn with hneg | hpos
  · have hnat : (-n).toNat = n.natAbs := by omega
    refine ⟨.negative, ?_, fun k => ?_⟩
    · rw [compare_lt_iff_lt.mpr hneg, ← hnat]
    · rw [Int.sign_eq_neg_one_of_neg hneg, neg_one_mul]
      rfl
  · have hnat : n.toNat = n.natAbs := by omega
    refine ⟨.positive, ?_, fun k => ?_⟩
    · rw [compare_gt_iff_gt.mpr hpos, ← hnat]
    · rw [Int.sign_eq_one_of_pos hpos, one_mul]
      rfl

theorem standsFor_nearest_of_lt {n : Int} (h : n.natAbs < 2 ^ 200) :
    StandsFor (rounded n) (nearest n).toModel.unpack := by
  change StandsFor (rounded n)
    (UnpackedFloat.unpack .binary64 (UnpackedFloat.pack .binary64 (UnpackedFloat.ofInt .binary64 n)))
  by_cases hn : n = 0
  · subst hn
    rfl
  · have hlog : n.natAbs.log2 < 200 := (Nat.log2_lt (by omega)).mpr h
    obtain ⟨s, hofInt, happly⟩ := ofInt_eq_round hn
    obtain ⟨m, e, hm, hround, hlo, hhi, helo, hehi, hvalue⟩ := round_eq (n := n.natAbs) s (by omega)
    rw [hofInt, hround, unpack_pack hlo hhi helo (by omega)]
    refine ⟨hlo, hhi, helo, ?_⟩
    rw [hvalue, happly, rounded, Nat.cast_mul, Int.mul_assoc]
    rfl

theorem standsFor_nearest {n : Int} (h : n.natAbs < 2 ^ 64) :
    StandsFor (rounded n) (nearest n).toModel.unpack :=
  standsFor_nearest_of_lt (h.trans (Nat.pow_lt_pow_right (by decide) (by decide)))

theorem compare_congr {α β : Type} [LinearOrder α] [LinearOrder β] {a b : α} {c d : β}
    (hlt : a < b ↔ c < d) (hgt : b < a ↔ d < c) : compare a b = compare c d := by
  rcases lt_trichotomy a b with h | h | h
  · rw [compare_lt_iff_lt.mpr h, compare_lt_iff_lt.mpr (hlt.mp h)]
  · have hcd : c = d := by
      apply le_antisymm
      · exact not_lt.mp fun h' => h.not_gt (hgt.mpr h')
      · exact not_lt.mp fun h' => h.not_lt (hlt.mpr h')
    rw [compare_eq_iff_eq.mpr h, compare_eq_iff_eq.mpr hcd]
  · rw [compare_gt_iff_gt.mpr h, compare_gt_iff_gt.mpr (hgt.mp h)]

theorem lt_of_exponent_lt {m k : Nat} {e f : Int} (hm : m < 2 ^ 53) (hk : 2 ^ 52 ≤ k)
    (he : -52 ≤ e) (hlt : e < f) : m * 2 ^ (e + 52).toNat < k * 2 ^ (f + 52).toNat := by
  calc m * 2 ^ (e + 52).toNat < 2 ^ 53 * 2 ^ (e + 52).toNat :=
        Nat.mul_lt_mul_of_pos_right hm (Nat.two_pow_pos _)
    _ = 2 ^ 52 * 2 ^ ((e + 52).toNat + 1) := by ring
    _ ≤ k * 2 ^ (f + 52).toNat :=
        Nat.mul_le_mul hk (Nat.pow_le_pow_right (by omega) (by omega))

theorem compare_magnitudes {m k : Nat} {e f : Int} (hmlo : 2 ^ 52 ≤ m) (hmhi : m < 2 ^ 53)
    (hklo : 2 ^ 52 ≤ k) (hkhi : k < 2 ^ 53) (he : -52 ≤ e) (hf : -52 ≤ f) :
    (compare e f).then (compare m k) =
      compare (m * 2 ^ (e + 52).toNat) (k * 2 ^ (f + 52).toNat) := by
  rcases lt_trichotomy e f with hlt | rfl | hgt
  · have hvalues := lt_of_exponent_lt hmhi hklo he hlt
    rw [compare_lt_iff_lt.mpr hlt, compare_lt_iff_lt.mpr hvalues]
    rfl
  · have hpos : 0 < 2 ^ (e + 52).toNat := Nat.two_pow_pos _
    rw [compare_eq_iff_eq.mpr rfl]
    exact compare_congr (Nat.mul_lt_mul_right hpos).symm (Nat.mul_lt_mul_right hpos).symm
  · have hvalues := lt_of_exponent_lt hkhi hmlo hf hgt
    rw [compare_gt_iff_gt.mpr hgt, compare_gt_iff_gt.mpr hvalues]
    rfl

section standsFor

variable {a b : Int} {m k : Nat} {e f : Int} {hm : 0 < m} {hk : 0 < k}

theorem pos_of_standsFor (ha : StandsFor a (.finite .positive m e hm)) : 0 < a := by
  have hvalue : ((m * 2 ^ (e + 52).toNat : Nat) : Int) = a * 2 ^ 52 := ha.2.2.2
  have hpos : 0 < m * 2 ^ (e + 52).toNat := Nat.mul_pos hm (Nat.two_pow_pos _)
  omega

theorem neg_of_standsFor (ha : StandsFor a (.finite .negative m e hm)) : a < 0 := by
  have hvalue : -((m * 2 ^ (e + 52).toNat : Nat) : Int) = a * 2 ^ 52 := ha.2.2.2
  have hpos : 0 < m * 2 ^ (e + 52).toNat := Nat.mul_pos hm (Nat.two_pow_pos _)
  omega

theorem magnitude_of_standsFor {s : Sign} (ha : StandsFor a (.finite s m e hm)) :
    a = s.apply a.natAbs ∧ m * 2 ^ (e + 52).toNat = a.natAbs * 2 ^ 52 := by
  have hvalue := ha.2.2.2
  cases s with
  | negative =>
    have hneg := neg_of_standsFor ha
    change -((m * 2 ^ (e + 52).toNat : Nat) : Int) = _ at hvalue
    refine ⟨?_, by omega⟩
    change a = -(a.natAbs : Int)
    omega
  | positive =>
    have hpos := pos_of_standsFor ha
    change ((m * 2 ^ (e + 52).toNat : Nat) : Int) = _ at hvalue
    refine ⟨?_, by omega⟩
    change a = (a.natAbs : Int)
    omega

theorem mantissa_of_standsFor {s : Sign} (ha : StandsFor a (.finite s m e hm)) :
    m * 2 ^ e.toNat = a.natAbs * 2 ^ (-e).toNat := by
  have hmagnitude := (magnitude_of_standsFor ha).2
  have he : -52 ≤ e := ha.2.2.1
  have hleft : (e + 52).toNat = e.toNat + (52 - (-e).toNat) := by omega
  have hright : 2 ^ 52 = 2 ^ ((-e).toNat + (52 - (-e).toNat)) := by
    rw [Nat.add_sub_cancel' (by omega)]
  rw [hleft, hright, pow_add, pow_add, ← Nat.mul_assoc, ← Nat.mul_assoc] at hmagnitude
  exact Nat.eq_of_mul_eq_mul_right (Nat.two_pow_pos _) hmagnitude

theorem compare_finite_standsFor {s t : Sign} (ha : StandsFor a (.finite s m e hm))
    (hb : StandsFor b (.finite t k f hk)) :
    (UnpackedFloat.finite s m e hm).compare (.finite t k f hk) = some (compare a b) := by
  have hmagnitudes := compare_magnitudes ha.1 ha.2.1 hb.1 hb.2.1 ha.2.2.1 hb.2.2.1
  cases s <;> cases t
  case positive.negative =>
    have hlt : b < a := (neg_of_standsFor hb).trans (pos_of_standsFor ha)
    rw [compare_gt_iff_gt.mpr hlt]
    rfl
  case negative.positive =>
    have hlt : a < b := (neg_of_standsFor ha).trans (pos_of_standsFor hb)
    rw [compare_lt_iff_lt.mpr hlt]
    rfl
  case positive.positive =>
    have hav : ((m * 2 ^ (e + 52).toNat : Nat) : Int) = a * 2 ^ 52 := ha.2.2.2
    have hbv : ((k * 2 ^ (f + 52).toNat : Nat) : Int) = b * 2 ^ 52 := hb.2.2.2
    change some ((compare e f).then (compare m k)) = _
    rw [hmagnitudes]
    exact congrArg some (compare_congr (by omega) (by omega))
  case negative.negative =>
    have hav : -((m * 2 ^ (e + 52).toNat : Nat) : Int) = a * 2 ^ 52 := ha.2.2.2
    have hbv : -((k * 2 ^ (f + 52).toNat : Nat) : Int) = b * 2 ^ 52 := hb.2.2.2
    change some ((compare e f).then (compare m k)).swap = _
    rw [hmagnitudes, ← Std.OrientedCmp.eq_swap]
    exact congrArg some (compare_congr (by omega) (by omega))

end standsFor

theorem compare_standsFor {a b : Int} {u v : UnpackedFloat} (ha : StandsFor a u)
    (hb : StandsFor b v) : u.compare v = some (compare a b) := by
  rcases u with _ | _ | s | ⟨s, m, e, hm⟩ <;> rcases v with _ | _ | t | ⟨t, k, f, hk⟩
  case zero.zero =>
    obtain rfl : a = 0 := ha
    obtain rfl : b = 0 := hb
    rfl
  case zero.finite =>
    obtain rfl : a = 0 := ha
    cases t with
    | positive =>
      rw [compare_lt_iff_lt.mpr (pos_of_standsFor hb)]
      rfl
    | negative =>
      rw [compare_gt_iff_gt.mpr (neg_of_standsFor hb)]
      rfl
  case finite.zero =>
    obtain rfl : b = 0 := hb
    cases s with
    | positive =>
      rw [compare_gt_iff_gt.mpr (pos_of_standsFor ha)]
      rfl
    | negative =>
      rw [compare_lt_iff_lt.mpr (neg_of_standsFor ha)]
      rfl
  case finite.finite => exact compare_finite_standsFor ha hb
  -- Infinities and NaN stand for no integer.
  all_goals first
    | exact ha.elim
    | exact hb.elim

theorem order?_nearest {a b : Int} (ha : a.natAbs < 2 ^ 64) (hb : b.natAbs < 2 ^ 64) :
    order? (nearest a) (nearest b) = some (compare (rounded a) (rounded b)) :=
  compare_standsFor (standsFor_nearest ha) (standsFor_nearest hb)

theorem nearest_beq {a b : Int} (ha : a.natAbs < 2 ^ 64) (hb : b.natAbs < 2 ^ 64) :
    (nearest a == nearest b) = true ↔ rounded a = rounded b := by
  change (order? (nearest a) (nearest b) == some .eq) = true ↔ _
  rw [order?_nearest ha hb, beq_iff_eq, Option.some_inj, compare_eq_iff_eq]

theorem compare_rounded {a b : Int} (h : rounded a ≠ rounded b) :
    compare (rounded a) (rounded b) = compare a b := by
  rcases lt_trichotomy a b with hlt | rfl | hgt
  · have hrounded : rounded a < rounded b := lt_of_le_of_ne (rounded_mono hlt.le) h
    rw [compare_lt_iff_lt.mpr hlt, compare_lt_iff_lt.mpr hrounded]
  · exact absurd rfl h
  · have hrounded : rounded b < rounded a := lt_of_le_of_ne (rounded_mono hgt.le) h.symm
    rw [compare_gt_iff_gt.mpr hgt, compare_gt_iff_gt.mpr hrounded]

end RelDoc.Decimal
