import Mathlib
import RelDoc.Decimal.Layout
import RelDoc.Proofs.IntegerRounding

/-!
Doubles and their decimals. The numbers that round to a double lie between it and its neighbours, and
no number rounds to two doubles. The shortest decimal of a double rounds to it, and a text gives the
decimal back; so a text tells the double that it was written for.
-/

namespace RelDoc.Decimal

open Float.Model Float.Model.UnpackedFloat

def Scaled.value (s : Scaled) : ℚ := s.digits * 10 ^ s.exponent

theorem zpow_mul_pow {b : ℚ} (hb : b ≠ 0) (i : ℤ) : b ^ i * b ^ (-i).toNat = b ^ i.toNat := by
  rw [← zpow_natCast, ← zpow_natCast, ← zpow_add₀ hb]
  congr 1
  omega

theorem compareScaled_eq (a : ℕ) (i : ℤ) (b : ℕ) (j : ℤ) :
    compareScaled a i b j = compare ((a : ℚ) * 10 ^ i) (b * 2 ^ j) := by
  have hscale : (0 : ℚ) < 10 ^ (-i).toNat * 2 ^ (-j).toNat := by positivity
  have hleft : (((a * 10 ^ i.toNat) <<< (-j).toNat : ℕ) : ℚ) =
      a * 10 ^ i * (10 ^ (-i).toNat * 2 ^ (-j).toNat) := by
    rw [Nat.shiftLeft_eq]
    push_cast
    rw [← zpow_mul_pow (by norm_num) i]
    ring
  have hright : (((b * 10 ^ (-i).toNat) <<< j.toNat : ℕ) : ℚ) =
      b * 2 ^ j * (10 ^ (-i).toNat * 2 ^ (-j).toNat) := by
    rw [Nat.shiftLeft_eq]
    push_cast
    rw [← zpow_mul_pow (by norm_num) j]
    ring
  have hlt {x y : ℕ} {u v : ℚ} (hx : (x : ℚ) = u * (10 ^ (-i).toNat * 2 ^ (-j).toNat))
      (hy : (y : ℚ) = v * (10 ^ (-i).toNat * 2 ^ (-j).toNat)) : x < y ↔ u < v := by
    rw [← Nat.cast_lt (α := ℚ), hx, hy]
    exact mul_lt_mul_iff_left₀ hscale
  exact compare_congr (hlt hleft hright) (hlt hright hleft)

def IsNarrow (m : ℕ) (e : ℤ) : Prop := m = 2 ^ 52 ∧ e ≠ -1074

instance (m : ℕ) (e : ℤ) : Decidable (IsNarrow m e) := inferInstanceAs (Decidable (_ ∧ _))

def lowEnd (m : ℕ) (e : ℤ) : ℚ := ((4 * m - if IsNarrow m e then 1 else 2 : ℕ) : ℚ) * 2 ^ (e - 2)

def highEnd (m : ℕ) (e : ℤ) : ℚ := ((4 * m + 2 : ℕ) : ℚ) * 2 ^ (e - 2)

/-- Does a number round to `m * 2 ^ e`? The ends of the interval do when the last digit of `m` is
zero. -/
structure RoundsTo (v : ℚ) (m : ℕ) (e : ℤ) : Prop where
  low : lowEnd m e ≤ v
  high : v ≤ highEnd m e
  ends : m % 2 ≠ 0 → lowEnd m e ≠ v ∧ v ≠ highEnd m e

theorem roundsTo_of_identifies {m a : ℕ} {e i : ℤ} (h : identifies m e a i = true) :
    RoundsTo (a * 10 ^ i) m e := by
  rw [identifies] at h
  rw [compareScaled_eq, compareScaled_eq] at h
  change (if m % 2 = 0 then compare _ (lowEnd m e) != .lt && compare _ (highEnd m e) != .gt
    else compare _ (lowEnd m e) == .gt && compare _ (highEnd m e) == .lt) = true at h
  split at h
  case isTrue heven =>
    rw [Bool.and_eq_true, bne_iff_ne, bne_iff_ne, compare_ge_iff_ge, compare_le_iff_le] at h
    exact ⟨h.1, h.2, fun hodd => absurd heven hodd⟩
  case isFalse =>
    rw [Bool.and_eq_true, beq_iff_eq, beq_iff_eq, compare_gt_iff_gt, compare_lt_iff_lt] at h
    exact ⟨h.1.le, h.2.le, fun _ => ⟨h.1.ne, h.2.ne⟩⟩

theorem roundsTo_self {m : ℕ} (hm : 0 < m) (e : ℤ) : RoundsTo (m * 2 ^ e) m e := by
  have hpos : (0 : ℚ) < 2 ^ (e - 2) := by positivity
  have hvalue : (m : ℚ) * 2 ^ e = ((4 * m : ℕ) : ℚ) * 2 ^ (e - 2) := by
    rw [zpow_sub₀ (by norm_num)]
    push_cast
    ring
  have hlow : lowEnd m e < m * 2 ^ e := by
    rw [hvalue, lowEnd, mul_lt_mul_iff_left₀ hpos, Nat.cast_lt]
    split <;> omega
  have hhigh : m * 2 ^ e < highEnd m e := by
    rw [hvalue, highEnd, mul_lt_mul_iff_left₀ hpos, Nat.cast_lt]
    omega
  exact ⟨hlow.le, hhigh.le, fun _ => ⟨hlow.ne, hhigh.ne⟩⟩

theorem RoundsTo.pos {v : ℚ} {m : ℕ} {e : ℤ} (h : RoundsTo v m e) (hm : 0 < m) : 0 < v := by
  apply lt_of_lt_of_le _ h.low
  apply mul_pos
  · rw [Nat.cast_pos]
    split <;> omega
  · positivity

theorem roundsTo_onGrid {tie : Tie} {m : ℕ} {e i : ℤ} {s : Scaled}
    (h : onGrid? tie m e i = some s) : RoundsTo s.value m e := by
  have hidentifies : identifies m e s.digits s.exponent = true := by
    unfold onGrid? at h
    dsimp only at h
    split at h
    case h_1 => cases h
    case h_2 hbelow _ =>
      cases h
      exact hbelow
    case h_3 hbelow =>
      cases h
      exact hbelow
    case h_4 hbelow habove =>
      split at h
      all_goals cases h
      case h_1 => exact hbelow
      case h_2 => exact habove
      case h_3 => exact habove
      case h_4 =>
        dsimp only
        split
        · exact hbelow
        · exact habove
  exact roundsTo_of_identifies hidentifies

theorem value_strip (fuel : ℕ) (s : Scaled) : (strip fuel s).value = s.value := by
  induction fuel generalizing s with
  | zero => rfl
  | succ fuel ih =>
    rw [strip]
    split
    case isTrue hzero =>
      have hdigits : (s.digits : ℚ) = (s.digits / 10 : ℕ) * 10 := by
        exact_mod_cast (Nat.div_mul_cancel (Nat.dvd_of_mod_eq_zero hzero)).symm
      rw [ih, Scaled.value, Scaled.value, zpow_add_one₀ (by norm_num), hdigits]
      ring
    case isFalse => rfl

theorem value_exact (m : ℕ) (e : ℤ) :
    (⟨(m * Nat.pow 5 (-e).toNat) <<< e.toNat, min e 0⟩ : Scaled).value = m * 2 ^ e := by
  have htwo : (2 : ℚ) ^ e * 2 ^ (-e).toNat = 2 ^ e.toNat := zpow_mul_pow (by norm_num) e
  have hten : (10 : ℚ) ^ (min e 0) * 10 ^ (-e).toNat = 1 := by
    rw [← zpow_natCast, ← zpow_add₀ (by norm_num)]
    have hzero : min e 0 + ((-e).toNat : ℤ) = 0 := by omega
    rw [hzero, zpow_zero]
  have hfactors : (10 : ℚ) ^ (-e).toNat = 2 ^ (-e).toNat * 5 ^ (-e).toNat := by
    rw [← mul_pow]
    norm_num
  change (((m * 5 ^ (-e).toNat) <<< e.toNat : ℕ) : ℚ) * 10 ^ (min e 0) = _
  rw [Nat.shiftLeft_eq]
  push_cast
  calc (m : ℚ) * 5 ^ (-e).toNat * 2 ^ e.toNat * 10 ^ (min e 0)
      = m * 2 ^ e * (10 ^ (min e 0) * (2 ^ (-e).toNat * 5 ^ (-e).toNat)) := by
        rw [← htwo]
        ring
    _ = m * 2 ^ e := by rw [← hfactors, hten, mul_one]

theorem roundsTo_shortest (tie : Tie) {m : ℕ} (hm : 0 < m) (e : ℤ) :
    RoundsTo (shortest tie m e).value m e := by
  rw [shortest, value_strip]
  rcases hfound : List.findSome? _ _ with _ | s
  · rw [Option.getD_none, value_exact]
    exact roundsTo_self hm e
  · obtain ⟨n, -, hgrid⟩ := List.exists_of_findSome?_eq_some hfound
    exact roundsTo_onGrid hgrid

structure IsNormal (m : ℕ) (e : ℤ) : Prop where
  pos : 0 < m
  bound : m < 2 ^ 53
  least : -1074 ≤ e
  full : 2 ^ 52 ≤ m ∨ e = -1074

section normal

variable {m k : ℕ} {e f : ℤ}

theorem highEnd_le_lowEnd (hm : IsNormal m e) (hk : IsNormal k f)
    (hlt : e < f ∨ e = f ∧ m < k) :
    highEnd m e ≤ lowEnd k f ∧ (highEnd m e = lowEnd k f → m % 2 ≠ 0 ∨ k % 2 ≠ 0) := by
  have hpos : (0 : ℚ) < 2 ^ (e - 2) := by positivity
  have hbound := hm.bound
  rcases hlt with hlt | ⟨rfl, hlt⟩
  · have hleast := hm.least
    have hfull : 2 ^ 52 ≤ k := hk.full.resolve_right (by omega)
    obtain ⟨d, hd⟩ : ∃ d : ℕ, f - 2 = e - 2 + (d + 1 : ℕ) := ⟨(f - e - 1).toNat, by omega⟩
    have htwo : 0 < 2 ^ d := Nat.two_pow_pos d
    have hlow : lowEnd k f = (((4 * k - if IsNarrow k f then 1 else 2) * 2 ^ (d + 1) : ℕ) : ℚ) *
        2 ^ (e - 2) := by
      rw [lowEnd, hd, zpow_add₀ (by norm_num), zpow_natCast]
      push_cast
      ring
    have hends : 2 ^ 55 - 2 ≤ (4 * k - if IsNarrow k f then 1 else 2) * 2 ^ (d + 1) := by
      calc 2 ^ 55 - 2 = (2 ^ 54 - 1) * 2 := by norm_num
        _ ≤ (4 * k - if IsNarrow k f then 1 else 2) * 2 ^ (d + 1) := by
          apply Nat.mul_le_mul
          · split
            · omega
            case isFalse hwide =>
              have hne : k ≠ 2 ^ 52 := fun heq => hwide ⟨heq, by omega⟩
              omega
          · rw [Nat.pow_succ]
            omega
    rw [highEnd, hlow, mul_le_mul_iff_left₀ hpos, mul_left_inj' hpos.ne', Nat.cast_le, Nat.cast_inj]
    omega
  · have hwide : ¬ IsNarrow k e := by
      rintro ⟨rfl, hleast⟩
      exact absurd (hm.full.resolve_right hleast) (by omega)
    rw [highEnd, lowEnd, if_neg hwide, mul_le_mul_iff_left₀ hpos, mul_left_inj' hpos.ne',
      Nat.cast_le, Nat.cast_inj]
    omega

theorem not_roundsTo_both {v : ℚ} (hm : IsNormal m e) (hk : IsNormal k f)
    (hlt : e < f ∨ e = f ∧ m < k) (hvm : RoundsTo v m e) (hvk : RoundsTo v k f) : False := by
  obtain ⟨hle, hodd⟩ := highEnd_le_lowEnd hm hk hlt
  have hhigh : v = highEnd m e := le_antisymm hvm.high (hle.trans hvk.low)
  have hlow : lowEnd k f = v := le_antisymm hvk.low (hvm.high.trans hle)
  rcases hodd (hhigh.symm.trans hlow.symm) with h | h
  · exact (hvm.ends h).2 hhigh
  · exact (hvk.ends h).1 hlow

theorem roundsTo_unique {v : ℚ} (hm : IsNormal m e) (hk : IsNormal k f) (hvm : RoundsTo v m e)
    (hvk : RoundsTo v k f) : m = k ∧ e = f := by
  rcases lt_trichotomy e f with hlt | rfl | hgt
  · exact (not_roundsTo_both hm hk (Or.inl hlt) hvm hvk).elim
  · rcases lt_trichotomy m k with hlt | rfl | hgt
    · exact (not_roundsTo_both hm hk (Or.inr ⟨rfl, hlt⟩) hvm hvk).elim
    · exact ⟨rfl, rfl⟩
    · exact (not_roundsTo_both hk hm (Or.inr ⟨rfl, hgt⟩) hvk hvm).elim
  · exact (not_roundsTo_both hk hm (Or.inl hgt) hvk hvm).elim

end normal

theorem toNat_one_append (b : BitVec 52) : (1#1 ++ b).toNat = 2 ^ 52 + b.toNat := by
  rw [BitVec.toNat_append, ← Nat.shiftLeft_add_eq_or_of_lt b.isLt]
  rfl

theorem isNormal_of_unpack {x : Float} {s : Sign} {m : ℕ} {e : ℤ} {h : 0 < m}
    (hx : x.toModel.unpack = .finite s m e h) : IsNormal m e := by
  have hbias : (Format.binary64.exponentBias : ℤ) = 1023 := rfl
  rw [Float.Model.unpack, UnpackedFloat.unpack] at hx
  dsimp only at hx
  split at hx
  · split at hx <;> cases hx
  case isFalse =>
    split at hx
    case isTrue hzero =>
      split at hx
      · cases hx
      · cases hx
        rw [hzero, hbias]
        exact ⟨h, by omega, by decide, Or.inr (by decide)⟩
    case isFalse hne =>
      cases hx
      have hexp : (@unpackExponent .binary64 x.toModel.toBits.toBitVec).toNat ≠ 0 :=
        fun heq => hne (BitVec.eq_of_toNat_eq heq)
      rw [toNat_one_append, hbias]
      exact ⟨by omega, by omega, by omega, Or.inl (by omega)⟩

theorem eq_of_unpack_eq {x y : Float} (h : x.toModel.unpack = y.toModel.unpack) : x = y := by
  have hbits := (unpack_inj_of_valid x.toModel.valid y.toModel.valid (by decide)).mp h
  exact Float.toBits_inj.mp (UInt64.toBitVec_inj.mp hbits)

def readPlain (cs : List Char) : ℚ :=
  let fraction := (cs.dropWhile (· ≠ '.')).drop 1
  (Nat.ofDigitChars 10 (cs.takeWhile (· ≠ '.') ++ fraction) 0 : ℕ) / 10 ^ fraction.length

def readExponent : List Char → ℤ
  | 'e' :: '-' :: cs => -Nat.ofDigitChars 10 cs 0
  | 'e' :: '+' :: cs => Nat.ofDigitChars 10 cs 0
  | _ => 0

def readMagnitude (cs : List Char) : ℚ :=
  readPlain (cs.takeWhile (· ≠ 'e')) * 10 ^ readExponent (cs.dropWhile (· ≠ 'e'))

abbrev AllDigits (cs : List Char) : Prop := ∀ c ∈ cs, c.isDigit = true

theorem ne_of_isDigit {c d : Char} (hc : c.isDigit = true) (hd : d.isDigit = false) : c ≠ d := by
  rintro rfl
  rw [hc] at hd
  cases hd

theorem allDigits_toDigits (n : ℕ) : AllDigits (Nat.toDigits 10 n) :=
  fun _ hc => Nat.isDigit_of_mem_toDigits (by decide) (by decide) hc

theorem allDigits_zeros (n : ℕ) : AllDigits (List.replicate n '0') := by
  intro c hc
  rw [List.eq_of_mem_replicate hc]
  rfl

theorem allDigits_zero : AllDigits ['0'] := allDigits_zeros 1

theorem AllDigits.append {cs ds : List Char} (hc : AllDigits cs) (hd : AllDigits ds) :
    AllDigits (cs ++ ds) := fun c h => (List.mem_append.mp h).elim (hc c) (hd c)

theorem takeWhile_append_cons {p : Char → Bool} {cs : List Char} (d : Char) (rest : List Char)
    (hcs : ∀ c ∈ cs, p c = true) (hd : p d = false) :
    (cs ++ d :: rest).takeWhile p = cs ∧ (cs ++ d :: rest).dropWhile p = d :: rest := by
  rw [List.takeWhile_append_of_pos hcs, List.dropWhile_append_of_pos hcs,
    List.takeWhile_cons_of_neg (by rw [hd]; decide), List.dropWhile_cons_of_neg (by rw [hd]; decide)]
  exact ⟨List.append_nil cs, rfl⟩

theorem readPlain_point {cs ds : List Char} (hc : AllDigits cs) :
    readPlain (cs ++ '.' :: ds) = (Nat.ofDigitChars 10 (cs ++ ds) 0 : ℕ) / 10 ^ ds.length := by
  have hpoint : ∀ c ∈ cs, decide (c ≠ '.') = true :=
    fun c h => decide_eq_true (ne_of_isDigit (hc c h) rfl)
  obtain ⟨htake, hdrop⟩ := takeWhile_append_cons '.' ds hpoint rfl
  rw [readPlain, htake, hdrop]
  rfl

theorem readPlain_whole {cs : List Char} (hc : AllDigits cs) :
    readPlain cs = (Nat.ofDigitChars 10 cs 0 : ℕ) := by
  have hpoint : ∀ c ∈ cs, decide (c ≠ '.') = true :=
    fun c h => decide_eq_true (ne_of_isDigit (hc c h) rfl)
  rw [readPlain, List.takeWhile_eq_self_iff.mpr hpoint, List.dropWhile_eq_nil_iff.mpr hpoint]
  simp

theorem readMagnitude_point {cs ds : List Char} (hc : AllDigits cs) (hd : AllDigits ds) :
    readMagnitude (cs ++ '.' :: ds) = (Nat.ofDigitChars 10 (cs ++ ds) 0 : ℕ) / 10 ^ ds.length := by
  have hmark : ∀ c ∈ cs ++ '.' :: ds, decide (c ≠ 'e') = true := by
    intro c h
    rw [List.mem_append, List.mem_cons] at h
    apply decide_eq_true
    rcases h with h | rfl | h
    · exact ne_of_isDigit (hc c h) rfl
    · decide
    · exact ne_of_isDigit (hd c h) rfl
  rw [readMagnitude, List.takeWhile_eq_self_iff.mpr hmark, List.dropWhile_eq_nil_iff.mpr hmark,
    readPlain_point hc, readExponent, zpow_zero, mul_one]
  all_goals simp

theorem readMagnitude_exponent {cs rest : List Char} (hc : 'e' ∉ cs) :
    readMagnitude (cs ++ 'e' :: rest) = readPlain cs * 10 ^ readExponent ('e' :: rest) := by
  have hmark : ∀ c ∈ cs, decide (c ≠ 'e') = true := by
    rintro c h
    apply decide_eq_true
    rintro rfl
    exact hc h
  obtain ⟨htake, hdrop⟩ := takeWhile_append_cons 'e' rest hmark rfl
  rw [readMagnitude, htake, hdrop]

theorem digits_div_pow (s : Scaled) {n : ℕ} (h : (n : ℤ) = -s.exponent) :
    (s.digits : ℚ) / 10 ^ n = s.value := by
  have hexp : s.exponent = -(n : ℤ) := by omega
  rw [Scaled.value, hexp, zpow_neg, zpow_natCast, div_eq_mul_inv]

theorem readMagnitude_positionalText (s : Scaled) :
    readMagnitude (positionalText true s).toList = s.value := by
  have hdigits := allDigits_toDigits s.digits
  have hvalue : Nat.ofDigitChars 10 (Nat.toDigits 10 s.digits) 0 = s.digits :=
    Nat.ofDigitChars_ten_toDigits
  unfold positionalText
  dsimp only
  split
  case isTrue hexp =>
    obtain ⟨n, hn⟩ : ∃ n : ℕ, s.exponent = n := Int.eq_ofNat_of_zero_le hexp
    have htext : (String.ofList (Nat.toDigits 10 s.digits) ++ zeros s.exponent.toNat ++
        ".0").toList = (Nat.toDigits 10 s.digits ++ List.replicate n '0') ++ '.' :: ['0'] := by
      simp [zeros, hn]
    have hzeros : Nat.ofDigitChars 10
        (Nat.toDigits 10 s.digits ++ List.replicate n '0' ++ ['0']) 0 =
          s.digits * 10 ^ n * 10 := by
      rw [Nat.ofDigitChars_append, Nat.ofDigitChars_append, hvalue, Nat.ofDigitChars_replicate_zero,
        Nat.ofDigitChars_cons]
      simp [mul_comm]
    rw [if_pos rfl, htext, readMagnitude_point (hdigits.append (allDigits_zeros n)) allDigits_zero,
      hzeros, Scaled.value, hn, zpow_natCast]
    push_cast
    norm_num
  case isFalse hexp =>
    split
    case isTrue hwhole =>
      have htext (n : ℕ) : (String.ofList ((Nat.toDigits 10 s.digits).take n) ++ "." ++
          String.ofList ((Nat.toDigits 10 s.digits).drop n)).toList =
            (Nat.toDigits 10 s.digits).take n ++ '.' :: (Nat.toDigits 10 s.digits).drop n := by
        simp
      rw [htext, readMagnitude_point (fun c hc => hdigits c (List.mem_of_mem_take hc))
        (fun c hc => hdigits c (List.mem_of_mem_drop hc)), List.take_append_drop, hvalue]
      apply digits_div_pow
      rw [List.length_drop]
      omega
    case isFalse hwhole =>
      have htext (n : ℕ) : ("0." ++ zeros n ++
          String.ofList (Nat.toDigits 10 s.digits)).toList =
            ['0'] ++ '.' :: (List.replicate n '0' ++ Nat.toDigits 10 s.digits) := by
        simp [zeros]
      have hzeros (n : ℕ) : Nat.ofDigitChars 10
          (['0'] ++ (List.replicate n '0' ++ Nat.toDigits 10 s.digits)) 0 = s.digits := by
        rw [Nat.ofDigitChars_append, Nat.ofDigitChars_append, Nat.ofDigitChars_replicate_zero]
        exact hvalue
      rw [htext, readMagnitude_point allDigits_zero ((allDigits_zeros _).append hdigits),
        hzeros]
      apply digits_div_pow
      rw [List.length_append, List.length_replicate]
      omega

theorem readPlain_mantissa {d : Char} {ds : List Char} (h : AllDigits (d :: ds)) :
    readPlain (d :: if ds = [] then [] else '.' :: ds) =
      (Nat.ofDigitChars 10 (d :: ds) 0 : ℕ) / 10 ^ ds.length := by
  split
  case isTrue hnil =>
    subst hnil
    rw [readPlain_whole h, List.length_nil, pow_zero, div_one]
  case isFalse =>
    have hd : AllDigits [d] := fun c hc => h c (List.mem_cons.mpr (Or.inl (List.mem_singleton.mp hc)))
    exact @readPlain_point [d] ds hd

theorem readExponent_digits (e : ℤ) :
    readExponent ('e' :: (if e < 0 then '-' else '+') :: Nat.toDigits 10 e.natAbs) = e := by
  split
  · rw [readExponent, Nat.ofDigitChars_ten_toDigits]
    omega
  · rw [readExponent, Nat.ofDigitChars_ten_toDigits]
    omega

theorem readMagnitude_exponentText (s : Scaled) :
    readMagnitude (exponentText s).toList = s.value := by
  have hdigits := allDigits_toDigits s.digits
  have hvalue : Nat.ofDigitChars 10 (Nat.toDigits 10 s.digits) 0 = s.digits :=
    Nat.ofDigitChars_ten_toDigits
  unfold exponentText
  rcases hds : Nat.toDigits 10 s.digits with _ | ⟨d, ds⟩
  · exact absurd hds Nat.toDigits_ne_nil
  rw [hds] at hdigits hvalue
  obtain ⟨hd, hrest⟩ := List.forall_mem_cons.mp hdigits
  have hmark : 'e' ∉ d :: if ds = [] then [] else '.' :: ds := by
    intro hmem
    rcases List.mem_cons.mp hmem with rfl | hmem
    · exact absurd hd (by decide)
    · split at hmem
      · cases hmem
      · have hmem' : 'e' ∈ ds := (List.mem_cons.mp hmem).resolve_left (by decide)
        exact absurd (hrest 'e' hmem') (by decide)
  have htext (e : ℤ) : (String.ofList ((d :: ds).take 1) ++
      (if (d :: ds).length = 1 then "" else "." ++ String.ofList ((d :: ds).drop 1)) ++
        (if e < 0 then "e-" else "e+") ++ String.ofList (Nat.toDigits 10 e.natAbs)).toList =
          (d :: if ds = [] then [] else '.' :: ds) ++
            'e' :: (if e < 0 then '-' else '+') :: Nat.toDigits 10 e.natAbs := by
    by_cases he : e < 0 <;> rcases ds with _ | ⟨c, ds⟩ <;> simp [he]
  dsimp only
  rw [htext, readMagnitude_exponent hmark, readPlain_mantissa hdigits, readExponent_digits, hvalue,
    Scaled.value, div_mul_eq_mul_div, div_eq_iff (by positivity), mul_assoc]
  rw [← zpow_natCast, ← zpow_add₀ (by norm_num), List.length_cons]
  congr 2
  omega

def StartsWithDigit (t : String) : Prop := ∃ d rest, t.toList = d :: rest ∧ d.isDigit = true

theorem StartsWithDigit.append {t : String} (ht : StartsWithDigit t) (u : String) :
    StartsWithDigit (t ++ u) := by
  obtain ⟨d, rest, htext, hd⟩ := ht
  exact ⟨d, rest ++ u.toList, by rw [String.toList_append, htext, List.cons_append], hd⟩

theorem startsWithDigit_take {n k : ℕ} (hk : 0 < k) :
    StartsWithDigit (String.ofList ((Nat.toDigits 10 n).take k)) := by
  have hdigits := allDigits_toDigits n
  rcases hds : Nat.toDigits 10 n with _ | ⟨d, ds⟩
  · exact absurd hds Nat.toDigits_ne_nil
  · obtain ⟨k, rfl⟩ := Nat.exists_eq_add_one_of_ne_zero hk.ne'
    rw [hds] at hdigits
    exact ⟨d, ds.take k, String.toList_ofList, hdigits d List.mem_cons_self⟩

theorem startsWithDigit_positionalText (pointZero : Bool) (s : Scaled) :
    StartsWithDigit (positionalText pointZero s) := by
  have hall : StartsWithDigit (String.ofList (Nat.toDigits 10 s.digits)) := by
    rw [← List.take_length (l := Nat.toDigits 10 s.digits)]
    exact startsWithDigit_take Nat.length_toDigits_pos
  unfold positionalText
  dsimp only
  split
  · exact (hall.append _).append _
  · split
    case isTrue hwhole => exact ((startsWithDigit_take (by omega)).append _).append _
    case isFalse =>
      have hzero : StartsWithDigit "0." := ⟨'0', ['.'], rfl, rfl⟩
      exact (hzero.append _).append _

theorem startsWithDigit_magnitudeText (style : Style) (m : ℕ) (e : ℤ) :
    StartsWithDigit (style.magnitudeText m e) := by
  unfold Style.magnitudeText
  split
  · split
    · exact ⟨'0', ['.', '0'], rfl, rfl⟩
    · exact ⟨'0', [], rfl, rfl⟩
  · dsimp only
    split
    · exact startsWithDigit_positionalText _ _
    · unfold exponentText
      exact (((startsWithDigit_take Nat.one_pos).append _).append _).append _

theorem readMagnitude_magnitudeText {style : Style} (hstyle : style.pointZero = true) (m : ℕ)
    (e : ℤ) : readMagnitude (style.magnitudeText m e).toList =
      if m = 0 then 0 else (shortest style.tie m e).value := by
  unfold Style.magnitudeText
  rw [hstyle]
  split
  · have hzero := readMagnitude_point allDigits_zero allDigits_zero
    rw [if_pos rfl]
    refine hzero.trans ?_
    simp [Nat.ofDigitChars_cons]
  · dsimp only
    split
    · exact readMagnitude_positionalText _
    · exact readMagnitude_exponentText _

theorem signText_append_inj {s t : Sign} {a b : String} (ha : StartsWithDigit a)
    (hb : StartsWithDigit b) (h : signText s ++ a = signText t ++ b) : s = t ∧ a = b := by
  obtain ⟨c, cs, hac, hc⟩ := ha
  obtain ⟨d, ds, hbd, hd⟩ := hb
  have hlists := congrArg String.toList h
  rw [String.toList_append, String.toList_append, hac, hbd] at hlists
  cases s <;> cases t
  case positive.positive => exact ⟨rfl, String.toList_inj.mp (by rw [hac, hbd]; exact hlists)⟩
  case negative.negative =>
    exact ⟨rfl, String.toList_inj.mp (by rw [hac, hbd]; exact List.tail_eq_of_cons_eq hlists)⟩
  case positive.negative =>
    obtain rfl : c = '-' := (List.cons.inj hlists).1
    exact absurd hc (by decide)
  case negative.positive =>
    obtain rfl : '-' = d := (List.cons.inj hlists).1
    exact absurd hd (by decide)

theorem render_finite (style : Style) {x : Float} (hx : x.isFinite = true) :
    ∃ s m e, style.render x = signText s ++ style.magnitudeText m e ∧
      (m = 0 ∧ x.toModel.unpack = .zero s ∨ ∃ h, x.toModel.unpack = .finite s m e h) := by
  change x.toModel.unpack.isFinite = true at hx
  rw [Style.render]
  rcases hunpack : x.toModel.unpack with s | _ | s | ⟨s, m, e, hm⟩
  case infinity =>
    rw [hunpack] at hx
    cases hx
  case notANumber =>
    rw [hunpack] at hx
    cases hx
  case zero => exact ⟨s, 0, 0, rfl, Or.inl ⟨rfl, rfl⟩⟩
  case finite => exact ⟨s, m, e, rfl, Or.inr ⟨hm, rfl⟩⟩

theorem render_inj {style : Style} (hstyle : style.pointZero = true) {x y : Float}
    (hx : x.isFinite = true) (hy : y.isFinite = true) (h : style.render x = style.render y) :
    x = y := by
  obtain ⟨s, m, e, hxtext, hxunpack⟩ := render_finite style hx
  obtain ⟨t, k, f, hytext, hyunpack⟩ := render_finite style hy
  rw [hxtext, hytext] at h
  obtain ⟨rfl, htexts⟩ := signText_append_inj (startsWithDigit_magnitudeText style m e)
    (startsWithDigit_magnitudeText style k f) h
  have hread : readMagnitude (style.magnitudeText m e).toList =
      readMagnitude (style.magnitudeText k f).toList := by rw [htexts]
  rw [readMagnitude_magnitudeText hstyle, readMagnitude_magnitudeText hstyle] at hread
  apply eq_of_unpack_eq
  rcases hxunpack with ⟨rfl, hxzero⟩ | ⟨hm, hxfinite⟩
  · rcases hyunpack with ⟨rfl, hyzero⟩ | ⟨hk, hyfinite⟩
    · rw [hxzero, hyzero]
    · rw [if_pos rfl, if_neg hk.ne'] at hread
      exact absurd hread ((roundsTo_shortest style.tie hk f).pos hk).ne
  · have hvx := roundsTo_shortest style.tie hm e
    rcases hyunpack with ⟨rfl, hyzero⟩ | ⟨hk, hyfinite⟩
    · rw [if_neg hm.ne', if_pos rfl] at hread
      exact absurd hread (hvx.pos hm).ne'
    · have hvy := roundsTo_shortest style.tie hk f
      rw [if_neg hm.ne', if_neg hk.ne'] at hread
      rw [← hread] at hvy
      obtain ⟨rfl, rfl⟩ :=
        roundsTo_unique (isNormal_of_unpack hxfinite) (isNormal_of_unpack hyfinite) hvx hvy
      rw [hxfinite, hyfinite]

end RelDoc.Decimal
