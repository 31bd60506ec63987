import RelDoc.Pattern.CharSet

/-!
Letters that differ in case only. No code point is moved by two shifts of the folding table, and none is
moved to where another shift would move it on; the table is checked as a whole, with sets of code points as
bits. So folding is done in one step, and the code points that a search tries for a letter are those
with the same folding.
-/

namespace RelDoc

namespace Text

def comb (step : Nat) : Nat → Nat
  | 0 => 0
  | count + 1 => 1 ||| comb step count <<< step

theorem testBit_comb (step : Nat) {count j : Nat} (hj : j < count) :
    (comb step count).testBit (j * step) = true := by
  induction count generalizing j with
  | zero => exact absurd hj (Nat.not_lt_zero j)
  | succ count ih =>
    rw [comb, Nat.testBit_or, Bool.or_eq_true]
    cases j with
    | zero => exact Or.inl (by rw [Nat.zero_mul]; rfl)
    | succ j =>
      have hbit := ih (Nat.lt_of_succ_lt_succ hj)
      right
      rw [Nat.testBit_shiftLeft, Nat.succ_mul, Nat.add_sub_cancel, hbit]
      simp

def meetNowhere (seen : Nat) : List Nat → Bool
  | [] => true
  | m :: rest => m &&& seen == 0 && meetNowhere (seen ||| m) rest

theorem not_testBit_of_meetNowhere {seen m n : Nat} {ms : List Nat}
    (h : meetNowhere seen ms = true) (hm : m ∈ ms) (hbit : m.testBit n = true) :
    seen.testBit n = false := by
  induction ms generalizing seen with
  | nil => cases hm
  | cons first rest ih =>
    rw [meetNowhere, Bool.and_eq_true, beq_iff_eq] at h
    rcases List.mem_cons.mp hm with rfl | hm
    · have hnone := congrArg (Nat.testBit · n) h.1
      simpa [Nat.testBit_and, hbit] using hnone
    · have hunion := ih h.2 hm
      rw [Nat.testBit_or, Bool.or_eq_false_iff] at hunion
      exact hunion.1

theorem eq_of_meetNowhere {α : Type} {f : α → Nat} {xs : List α} {seen n : Nat}
    (h : meetNowhere seen (xs.map f) = true) {x y : α} (hx : x ∈ xs) (hy : y ∈ xs)
    (hxn : (f x).testBit n = true) (hyn : (f y).testBit n = true) : x = y := by
  induction xs generalizing seen with
  | nil => cases hx
  | cons first rest ih =>
    rw [List.map_cons, meetNowhere, Bool.and_eq_true] at h
    have hlater {z : α} (hz : z ∈ rest) (hzn : (f z).testBit n = true) :
        (f first).testBit n = false := by
      have hunion := not_testBit_of_meetNowhere h.2 (List.mem_map_of_mem hz) hzn
      rw [Nat.testBit_or, Bool.or_eq_false_iff] at hunion
      exact hunion.2
    rcases List.mem_cons.mp hx with hfirst | hrest
    · rcases List.mem_cons.mp hy with hfirst' | hrest'
      · rw [hfirst, hfirst']
      · rw [hfirst, hlater hrest' hyn] at hxn
        cases hxn
    · rcases List.mem_cons.mp hy with hfirst' | hrest'
      · rw [hfirst', hlater hrest hxn] at hyn
        cases hyn
      · exact ih h.2 hrest hrest'

namespace CaseShift

def bits (s : CaseShift) (start : Nat) : Nat :=
  comb s.step ((s.high - s.low) / s.step + 1) <<< start

def target (s : CaseShift) : Nat := (s.low + s.delta).toNat

theorem low_le_of_covers {s : CaseShift} {n : Int} (h : s.covers n = true) :
    s.low ≤ n ∧ n ≤ s.high := by
  simp only [covers, Bool.and_eq_true, decide_eq_true_eq] at h
  exact h.1

theorem testBit_bits {s : CaseShift} {n : Nat} (h : s.covers n = true) (start : Nat) :
    (s.bits start).testBit (start + (n - s.low)) = true := by
  obtain ⟨hlow, hhigh⟩ := low_le_of_covers h
  have hstep : (n - s.low) % s.step = 0 := by
    simp only [covers, Bool.and_eq_true, beq_iff_eq] at h
    have hcast : ((n : Int) - s.low) = ((n - s.low : Nat) : Int) := by omega
    have hmod := h.2
    rw [hcast] at hmod
    exact_mod_cast hmod
  have hmultiple : (n - s.low) / s.step * s.step = n - s.low := by
    rw [Nat.mul_comm]
    exact Nat.mul_div_cancel' (Nat.dvd_of_mod_eq_zero hstep)
  have hcount : (n - s.low) / s.step < (s.high - s.low) / s.step + 1 :=
    Nat.lt_succ_of_le (Nat.div_le_div_right (by omega))
  have hbit := testBit_comb s.step hcount
  rw [hmultiple] at hbit
  rw [bits, Nat.testBit_shiftLeft, Nat.add_sub_cancel_left, hbit]
  simp

theorem testBit_bits_low {s : CaseShift} {n : Nat} (h : s.covers n = true) :
    (s.bits s.low).testBit n = true := by
  have hlow := (low_le_of_covers h).1
  have hn : s.low + (n - s.low) = n := by omega
  have hbit := testBit_bits h s.low
  rwa [hn] at hbit

end CaseShift

open CaseShift

def moved (shifts : List CaseShift) : Nat := shifts.foldr (fun s all => s.bits s.low ||| all) 0

theorem testBit_moved {shifts : List CaseShift} {s : CaseShift} {n : Nat} (hs : s ∈ shifts)
    (h : s.covers n = true) : (moved shifts).testBit n = true := by
  induction shifts with
  | nil => cases hs
  | cons first rest ih =>
    rw [moved, List.foldr_cons, Nat.testBit_or, Bool.or_eq_true]
    rcases List.mem_cons.mp hs with rfl | hs
    · exact Or.inl (testBit_bits_low h)
    · exact Or.inr (ih hs)

theorem caseShifts_meetNowhere : meetNowhere 0 (caseShifts.map fun s => s.bits s.low) = true := by
  decide +kernel

theorem caseShifts_final :
    (caseShifts.all fun s => s.bits s.target &&& moved caseShifts == 0) = true := by
  decide +kernel

theorem caseShifts_nonneg : ∀ s ∈ caseShifts, 0 ≤ s.low + s.delta := by
  decide +kernel

theorem caseShifts_valid : ∀ s ∈ caseShifts,
    (s.high < 0xD800 ∨ 0xDFFF < s.low ∧ s.high < 0x110000) ∧
      (s.high + s.delta < 0xD800 ∨ 0xDFFF < s.low + s.delta ∧ s.high + s.delta < 0x110000) := by
  decide +kernel

variable {s t : CaseShift} {m n : Nat}

theorem eq_of_covers (hs : s ∈ caseShifts) (ht : t ∈ caseShifts) (hsn : s.covers n = true)
    (htn : t.covers n = true) : s = t :=
  eq_of_meetNowhere caseShifts_meetNowhere hs ht (testBit_bits_low hsn) (testBit_bits_low htn)

theorem fold_of_covers (hs : s ∈ caseShifts) (h : s.covers n = true) :
    (fold n : Int) = n + s.delta := by
  have hnonneg := caseShifts_nonneg s hs
  have hlow := (low_le_of_covers h).1
  rw [fold]
  split
  · rename_i t hfind
    have ht := List.mem_of_find?_eq_some hfind
    have htn := List.find?_some hfind
    rw [eq_of_covers hs ht h htn, Int.toNat_of_nonneg]
    rw [← eq_of_covers hs ht h htn]
    omega
  · rename_i hfind
    exact absurd h (List.find?_eq_none.mp hfind s hs)

theorem fold_of_not_covers (h : ∀ s ∈ caseShifts, ¬s.covers n = true) : fold n = n := by
  rw [fold, List.find?_eq_none.mpr h]

theorem covers_or_not (n : Nat) : (∃ s ∈ caseShifts, s.covers n = true) ∨ fold n = n := by
  by_cases h : ∃ s ∈ caseShifts, s.covers n = true
  · exact Or.inl h
  · refine Or.inr (fold_of_not_covers fun s hs hcovers => ?_)
    exact h ⟨s, hs, hcovers⟩

theorem fold_fold (n : Nat) : fold (fold n) = fold n := by
  rcases covers_or_not n with ⟨s, hs, h⟩ | hsame
  · apply fold_of_not_covers
    intro t ht hcovers
    have hfold := fold_of_covers hs h
    have hnonneg := caseShifts_nonneg s hs
    have hlow := (low_le_of_covers h).1
    -- A code point moved twice would be a bit both of where `s` leads and of what is moved.
    have htarget : s.target + (n - s.low) = fold n := by
      rw [target]
      omega
    have hnone := List.all_eq_true.mp caseShifts_final s hs
    rw [beq_iff_eq] at hnone
    have hbit := congrArg (Nat.testBit · (fold n)) hnone
    have hmoved := testBit_moved ht hcovers
    have hleads := testBit_bits h s.target
    rw [htarget] at hleads
    simp [Nat.testBit_and, hmoved, hleads] at hbit
  · rw [hsame, hsame]

theorem mem_caseOrbit_iff : m ∈ caseOrbit n ↔ fold m = fold n := by
  rw [caseOrbit, List.mem_cons, List.mem_filterMap]
  constructor
  · rintro (rfl | ⟨s, hs, hsome⟩)
    · exact fold_fold n
    · dsimp only at hsome
      split at hsome
      · rename_i hcovers
        have hm := Option.some.inj hsome
        have hlow := (low_le_of_covers hcovers).1
        have hcast : (m : Int) = fold n - s.delta := by omega
        rw [← hcast] at hcovers
        have hfold := fold_of_covers hs hcovers
        omega
      · cases hsome
  · intro h
    rcases covers_or_not m with ⟨s, hs, hcovers⟩ | hsame
    · refine Or.inr ⟨s, hs, ?_⟩
      have hfold := fold_of_covers hs hcovers
      have hcast : (fold n : Int) - s.delta = m := by omega
      rw [hcast, if_pos hcovers]
      simp
    · exact Or.inl (hsame.symm.trans h)

theorem isValidChar_of_covers (hs : s ∈ caseShifts) (h : s.covers n = true) :
    n.isValidChar ∧ (fold n).isValidChar := by
  obtain ⟨hlow, hhigh⟩ := low_le_of_covers h
  obtain ⟨hfrom, hto⟩ := caseShifts_valid s hs
  have hfold := fold_of_covers hs h
  constructor
  · rw [Nat.isValidChar]
    omega
  · rw [Nat.isValidChar]
    omega

theorem isValidChar_of_fold (h : fold m = fold n) (hn : n.isValidChar) : m.isValidChar := by
  rcases covers_or_not m with ⟨s, hs, hcovers⟩ | hsame
  · exact (isValidChar_of_covers hs hcovers).1
  · rw [← hsame, h]
    rcases covers_or_not n with ⟨s, hs, hcovers⟩ | hsame'
    · exact (isValidChar_of_covers hs hcovers).2
    · rwa [hsame']

def SameLetter (c d : Char) : Prop := fold c.toNat = fold d.toNat

instance (c d : Char) : Decidable (SameLetter c d) :=
  inferInstanceAs (Decidable (fold c.toNat = fold d.toNat))

end Text

open Text

theorem CharSet.contains_folded_single (c d : Char) :
    (CharSet.folded (.single c)).contains d = true ↔ SameLetter c d := by
  rw [contains, Bool.or_eq_true, List.any_eq_true, contains_single, beq_iff_eq, SameLetter]
  constructor
  · rintro (hsame | ⟨n, hn, hchar⟩)
    · rw [hsame]
    · rw [contains_single, beq_iff_eq] at hchar
      have hfold := mem_caseOrbit_iff.mp hn
      have hvalid : n.isValidChar := isValidChar_of_fold hfold d.valid
      have hnat : (Char.ofNat n).toNat = n := by
        rw [Char.ofNat, dif_pos hvalid]
        rfl
      rw [hchar, hnat, hfold]
  · intro h
    refine Or.inr ⟨c.toNat, mem_caseOrbit_iff.mpr h, ?_⟩
    rw [contains_single, Char.ofNat_toNat, beq_iff_eq]

end RelDoc
