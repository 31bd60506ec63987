import RelDoc.Proofs.IntegerRounding

namespace RelDoc.Decimal

open Float.Model Float.Model.UnpackedFloat

theorem shiftRight_mul (m j k : Nat) :
    ExtendedMantissa.ofMantissaAndAccuracy (m * 2 ^ j) .exact >>> (j + k) =
      ExtendedMantissa.ofMantissaAndAccuracy m .exact >>> k := by
  have hpos : 0 < 2 ^ j := Nat.two_pow_pos j
  have hpow : 2 ^ (j + k) = 2 ^ j * 2 ^ k := pow_add 2 j k
  have hmod : m * 2 ^ j % 2 ^ (j + k) = 2 ^ j * (m % 2 ^ k) := by
    rw [hpow, Nat.mul_comm m, Nat.mul_mod_mul_left]
  have hdiv : m * 2 ^ j / 2 ^ (j + k) = m / 2 ^ k := by
    rw [hpow, Nat.mul_comm m, Nat.mul_div_mul_left _ _ hpos]
  have hdouble : 2 * (2 ^ j * (m % 2 ^ k)) = 2 ^ j * (2 * (m % 2 ^ k)) := Nat.mul_left_comm _ _ _
  rw [shiftRight_exact, shiftRight_exact, hmod, hdiv, hdouble, hpow, ExtendedMantissa.mk.injEq,
    decide_eq_decide, decide_eq_decide]
  refine ⟨rfl, ?_, ?_⟩
  · exact Nat.mul_le_mul_left_iff hpos
  · simp

def digitsFrom (m : Nat) (e target : Int) : ExtendedMantissa :=
  ExtendedMantissa.ofMantissaAndAccuracy (m * 2 ^ (e - target).toNat) .exact >>> (target - e).toNat

theorem digitsFrom_mul (m j : Nat) (e target : Int) :
    digitsFrom (m * 2 ^ j) e target = digitsFrom m (e + j) target := by
  rw [digitsFrom, digitsFrom, Nat.mul_assoc, ← pow_add]
  obtain ⟨k, hleft, hright⟩ : ∃ k, j + (e - target).toNat = (e + j - target).toNat + k ∧
      (target - e).toNat = k + (target - (e + j)).toNat :=
    ⟨(target - e).toNat - (target - (e + j)).toNat, by omega, by omega⟩
  rw [hleft, hright, pow_add, ← Nat.mul_assoc, shiftRight_mul]

theorem totalExponent_mul {m : Nat} (hm : 0 < m) (j : Nat) (e : Int) :
    totalExponent (m * 2 ^ j) e = totalExponent m (e + j) := by
  have hlo : 2 ^ (m.log2 + j) ≤ m * 2 ^ j := by
    rw [pow_add]
    exact Nat.mul_le_mul_right _ (Nat.log2_self_le (by omega))
  have hhi : m * 2 ^ j < 2 ^ (m.log2 + j + 1) := by
    rw [Nat.add_right_comm, pow_add]
    exact Nat.mul_lt_mul_of_pos_right Nat.lt_log2_self (Nat.two_pow_pos j)
  rw [totalExponent, totalExponent, log2_eq hlo hhi]
  omega

theorem shift_decreased {m : Nat} (hm : 0 < m) (e : Int) {target : Int}
    (htarget : Format.binary64.targetExponent (totalExponent m e) = target) :
    shiftToTargetExponent .binary64 (decreaseExponent m e target).1 (decreaseExponent m e target).2
      .exact = (digitsFrom m e target, target) := by
  have hmantissa : (decreaseExponent m e target).1 = m * 2 ^ (e - target).toNat :=
    Nat.shiftLeft_eq _ _
  have hexponent : (decreaseExponent m e target).2 = e - (e - target).toNat := rfl
  have htotal : totalExponent (m * 2 ^ (e - target).toNat) (e - (e - target).toNat) =
      totalExponent m e := by
    rw [totalExponent_mul hm]
    congr 1
    omega
  have hshift : (target - (e - (e - target).toNat)).toNat = (target - e).toNat := by omega
  have hresult : e - ((e - target).toNat : Int) + ((target - e).toNat : Int) = target := by omega
  rw [shiftToTargetExponent, hmantissa, hexponent, htotal, htarget, shiftToExponent, hshift, hresult,
    digitsFrom]

theorem round_mul (s : Sign) {m : Nat} (hm : 0 < m) (j : Nat) (e : Int) :
    round .binary64 s (m * 2 ^ j) e = round .binary64 s m (e + j) := by
  have htotal := totalExponent_mul hm j e
  have hpos : 0 < m * 2 ^ j := Nat.mul_pos hm (Nat.two_pow_pos j)
  rw [UnpackedFloat.round, UnpackedFloat.round, htotal]
  dsimp only
  rw [roundWithAccuracy, roundWithAccuracy, shift_decreased hm (e + j) rfl,
    shift_decreased hpos e (congrArg _ htotal), digitsFrom_mul]

theorem round_of_value (s : Sign) {m n : Nat} {e : Int} (hn : 0 < n) (he : -52 ≤ e)
    (hvalue : m * 2 ^ (e + 52).toNat = n * 2 ^ 52) :
    round .binary64 s m e = round .binary64 s n 0 := by
  rcases Int.le_total 0 e with hpos | hneg
  · obtain ⟨k, rfl⟩ : ∃ k : Nat, e = k := Int.eq_ofNat_of_zero_le hpos
    have hsplit : ((k : Int) + 52).toNat = k + 52 := by omega
    rw [hsplit, pow_add, ← Nat.mul_assoc] at hvalue
    obtain rfl : m * 2 ^ k = n := Nat.eq_of_mul_eq_mul_right (by decide) hvalue
    have hm : 0 < m := Nat.pos_of_mul_pos_right hn
    rw [round_mul s hm, Int.zero_add]
  · obtain ⟨k, rfl⟩ : ∃ k : Nat, e = -k := ⟨(-e).toNat, by omega⟩
    have hright : 2 ^ 52 = 2 ^ (k + (-(k : Int) + 52).toNat) := by
      congr 1
      omega
    rw [hright, pow_add, ← Nat.mul_assoc] at hvalue
    obtain rfl : m = n * 2 ^ k := Nat.eq_of_mul_eq_mul_right (Nat.two_pow_pos _) hvalue
    rw [round_mul s hn, Int.add_left_neg]

theorem normalize_of_value {m n e : Int} (he : -52 ≤ e)
    (hvalue : m * 2 ^ (e + 52).toNat = n * 2 ^ 52) :
    normalize .binary64 m e .positive = UnpackedFloat.ofInt .binary64 n := by
  have hpos : (0 : Int) < 2 ^ (e + 52).toNat := pow_pos (by decide) _
  have hnat {m n : Int} (hm : 0 ≤ m) (hn : 0 ≤ n)
      (h : m * 2 ^ (e + 52).toNat = n * 2 ^ 52) :
      m.toNat * 2 ^ (e + 52).toNat = n.toNat * 2 ^ 52 := by
    apply Int.natCast_inj.mp
    push_cast
    rwa [Int.toNat_of_nonneg hm, Int.toNat_of_nonneg hn]
  rw [UnpackedFloat.ofInt, UnpackedFloat.normalize, UnpackedFloat.normalize]
  rcases lt_trichotomy n 0 with hn | rfl | hn
  · have hm : m < 0 := by
      by_contra hge
      have := Int.mul_nonneg (Int.not_lt.mp hge) hpos.le
      omega
    rw [compare_lt_iff_lt.mpr hn, compare_lt_iff_lt.mpr hm]
    apply round_of_value
    · omega
    · exact he
    · have hneg : -m * 2 ^ (e + 52).toNat = -n * 2 ^ 52 := by
        rw [Int.neg_mul, hvalue, Int.neg_mul]
      exact hnat (by omega) (by omega) hneg
  · have hm : m = 0 := (Int.mul_eq_zero.mp hvalue).resolve_right hpos.ne'
    rw [hm]
    rfl
  · have hm : 0 < m := by
      by_contra hle
      have := mul_nonpos_of_nonpos_of_nonneg (Int.not_lt.mp hle) hpos.le
      omega
    rw [compare_gt_iff_gt.mpr hn, compare_gt_iff_gt.mpr hm]
    apply round_of_value
    · omega
    · exact he
    · exact hnat hm.le hn.le hvalue

theorem apply_mul (s : Sign) (m k : Int) : s.apply m * k = s.apply (m * k) := by
  cases s
  · exact Int.neg_mul m k
  · rfl

theorem add_finite {a b : Int} {s t : Sign} {m k : Nat} {e f : Int} {hm : 0 < m} {hk : 0 < k}
    (ha : StandsFor a (.finite s m e hm)) (hb : StandsFor b (.finite t k f hk)) :
    UnpackedFloat.add .binary64 (.finite s m e hm) (.finite t k f hk) =
      UnpackedFloat.ofInt .binary64 (a + b) := by
  obtain ⟨-, -, he, ha⟩ := ha
  obtain ⟨-, -, hf, hb⟩ := hb
  have haligned (s : Sign) (m : Nat) {e least : Int} (hle : least ≤ e) (hlo : -52 ≤ least) :
      s.apply (m <<< (e - least).toNat : Nat) * 2 ^ (least + 52).toNat =
        s.apply (m * 2 ^ (e + 52).toNat : Nat) := by
    have hsplit : (e + 52).toNat = (e - least).toNat + (least + 52).toNat := by omega
    rw [apply_mul, hsplit, Nat.shiftLeft_eq, pow_add, ← Nat.mul_assoc]
    push_cast
    rfl
  apply normalize_of_value
  · omega
  · rw [Int.add_mul, Int.add_mul, ← ha, ← hb]
    congr 1
    · exact haligned s m (min_le_left e f) (by omega)
    · exact haligned t k (min_le_right e f) (by omega)

theorem roundedNat_mantissa {m : Nat} (hlo : 2 ^ 52 ≤ m) (hhi : m < 2 ^ 53) (k : Nat) :
    roundedNat (m * 2 ^ k) = m * 2 ^ k := by
  have hlog : (m * 2 ^ k).log2 = 52 + k := by
    apply log2_eq
    · rw [pow_add]
      exact Nat.mul_le_mul_right _ hlo
    · rw [Nat.add_right_comm, pow_add]
      exact Nat.mul_lt_mul_of_pos_right hhi (Nat.two_pow_pos k)
  have hexcess : excess (m * 2 ^ k) = k := by
    rw [excess, hlog, Nat.add_sub_cancel_left]
  rw [roundedNat, hexcess, nearestQuotient_mul]

theorem rounded_of_standsFor {n : Int} {u : UnpackedFloat} (hu : StandsFor n u) : rounded n = n := by
  rcases u with s | _ | s | ⟨s, m, e, hm⟩
  case zero =>
    obtain rfl : n = 0 := hu
    rfl
  case finite =>
    have hmantissa := mantissa_of_standsFor hu
    obtain ⟨hlo, hhi, -, -⟩ := hu
    rcases Int.le_total 0 e with hpos | hneg
    · have hzero : (-e).toNat = 0 := by omega
      rw [hzero, pow_zero, Nat.mul_one] at hmantissa
      rw [rounded, ← hmantissa, roundedNat_mantissa hlo hhi, hmantissa, Int.sign_mul_natAbs]
    · have hzero : e.toNat = 0 := by omega
      rw [hzero, pow_zero, Nat.mul_one] at hmantissa
      have hle : n.natAbs ≤ m := by
        rw [hmantissa]
        exact Nat.le_mul_of_pos_right _ (Nat.two_pow_pos _)
      exact rounded_eq (hle.trans hhi.le)
  all_goals exact hu.elim

theorem unpack_pack_of_standsFor {n : Int} {u : UnpackedFloat} (hu : StandsFor n u)
    (hn : n.natAbs < 2 ^ 200) :
    UnpackedFloat.unpack .binary64 (UnpackedFloat.pack .binary64 u) = u := by
  rcases u with s | _ | s | ⟨s, m, e, hm⟩
  case zero => cases s <;> rfl
  case finite =>
    have hmagnitude := (magnitude_of_standsFor hu).2
    obtain ⟨hlo, hhi, he, -⟩ := hu
    have hsmall : (e + 52).toNat < 200 := by
      by_contra hge
      have hlarge : 2 ^ 52 * 2 ^ 200 ≤ m * 2 ^ (e + 52).toNat :=
        Nat.mul_le_mul hlo (Nat.pow_le_pow_right (by decide) (Nat.not_lt.mp hge))
      omega
    exact unpack_pack hlo hhi he (by omega)
  all_goals exact hu.elim

theorem standsFor_add_rounded {x y : Float} {a b : Int} (ha : StandsFor a x.toModel.unpack)
    (hb : StandsFor b y.toModel.unpack) (h : (a + b).natAbs < 2 ^ 200) :
    StandsFor (rounded (a + b)) (x + y).toModel.unpack := by
  change StandsFor (rounded (a + b)) (UnpackedFloat.unpack .binary64 (UnpackedFloat.pack .binary64
    (UnpackedFloat.add .binary64 x.toModel.unpack y.toModel.unpack)))
  generalize x.toModel.unpack = u at ha
  generalize y.toModel.unpack = v at hb
  rcases u with _ | _ | s | ⟨s, m, e, hm⟩ <;> rcases v with _ | _ | t | ⟨t, k, f, hk⟩
  case finite.finite =>
    rw [add_finite ha hb]
    exact standsFor_nearest_of_lt h
  case zero.zero =>
    obtain rfl : a = 0 := ha
    obtain rfl : b = 0 := hb
    cases s <;> cases t <;> rfl
  case zero.finite =>
    obtain rfl : a = 0 := ha
    rw [Int.zero_add] at h ⊢
    change StandsFor (rounded b) (UnpackedFloat.unpack .binary64 (UnpackedFloat.pack .binary64
      (.finite t k f hk)))
    rwa [unpack_pack_of_standsFor hb h, rounded_of_standsFor hb]
  case finite.zero =>
    obtain rfl : b = 0 := hb
    rw [Int.add_zero] at h ⊢
    change StandsFor (rounded a) (UnpackedFloat.unpack .binary64 (UnpackedFloat.pack .binary64
      (.finite s m e hm)))
    rwa [unpack_pack_of_standsFor ha h, rounded_of_standsFor ha]
  -- Infinities and NaN stand for no integer.
  all_goals first
    | exact ha.elim
    | exact hb.elim

theorem isFinite_of_standsFor {x : Float} {n : Int} (h : StandsFor n x.toModel.unpack) :
    x.isFinite = true := by
  change x.toModel.unpack.isFinite = true
  rcases hx : x.toModel.unpack with s | _ | s | ⟨s, m, e, hm⟩
  case zero => rfl
  case finite => rfl
  all_goals
    rw [hx] at h
    exact h.elim

theorem truncate_of_standsFor {x : Float} {n : Int} (h : StandsFor n x.toModel.unpack) :
    truncate x = n := by
  rw [truncate]
  rcases hx : x.toModel.unpack with s | _ | s | ⟨s, m, e, hm⟩
  all_goals rw [hx] at h
  case zero => exact h.symm
  case finite =>
    have hsign := (magnitude_of_standsFor h).1
    dsimp only
    rw [Nat.shiftLeft_eq, Nat.shiftRight_eq_div_pow, mantissa_of_standsFor h,
      Nat.mul_div_cancel _ (Nat.two_pow_pos _), ← hsign]
  all_goals exact h.elim

end RelDoc.Decimal
