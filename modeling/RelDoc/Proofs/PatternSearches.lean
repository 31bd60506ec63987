import Mathlib.Data.Finset.Card
import Mathlib.Data.Finset.Range
import Mathlib.Data.Nat.Bitwise
import RelDoc.Pattern.Basic

/-!
What a search finds. A pattern matches a text from one position to another, or it does not; a search
computes, for a set of positions, all positions to which the pattern matches from one of them. Sets that
grow no more are closed, and there are no more positions than the search for a repetition has steps.
-/

namespace RelDoc.Pattern

def Times (R : Nat → Nat → Prop) : Nat → Nat → Nat → Prop
  | 0, i, j => i = j
  | n + 1, i, k => ∃ j, R i j ∧ Times R n j k

def Spans (text : Array Char) : Pattern → Nat → Nat → Prop
  | .empty, i, j => i = j
  | .one set, i, j => j = i + 1 ∧ ∃ c, text[i]? = some c ∧ set.contains c = true
  | .assertion a, i, j => i = j ∧ a.holds text i = true
  | .seq p q, i, k => ∃ j, Spans text p i j ∧ Spans text q j k
  | .alt p q, i, j => Spans text p i j ∨ Spans text q i j
  | .repeated p least most, i, j =>
    ∃ more, (∀ bound ∈ most, more ≤ bound - least) ∧ Times (Spans text p) (least + more) i j

section steps

variable {R : Nat → Nat → Prop} {m n i j k : Nat}

theorem times_add : Times R (m + n) i k ↔ ∃ j, Times R m i j ∧ Times R n j k := by
  induction m generalizing i with
  | zero => simp [Times]
  | succ m ih =>
    rw [Nat.succ_add]
    constructor
    · rintro ⟨j, hstep, hrest⟩
      obtain ⟨l, hfirst, hlast⟩ := ih.mp hrest
      exact ⟨l, ⟨j, hstep, hfirst⟩, hlast⟩
    · rintro ⟨l, ⟨j, hstep, hfirst⟩, hlast⟩
      exact ⟨j, hstep, ih.mpr ⟨l, hfirst, hlast⟩⟩

theorem times_concat : Times R (n + 1) i k ↔ ∃ j, Times R n i j ∧ R j k := by
  rw [times_add]
  simp [Times]

def StaysWithin (size : Nat) (R : Nat → Nat → Prop) : Prop := ∀ i j, i ≤ size → R i j → j ≤ size

variable {size : Nat}

theorem StaysWithin.times (h : StaysWithin size R) : StaysWithin size (Times R n) := by
  induction n with
  | zero =>
    rintro i j hi rfl
    exact hi
  | succ n ih =>
    rintro i k hi ⟨j, hstep, hrest⟩
    exact ih j k (h i j hi hstep) hrest

end steps

theorem staysWithin_spans (text : Array Char) (p : Pattern) :
    StaysWithin text.size (Spans text p) := by
  induction p with
  | empty =>
    rintro i j hi rfl
    exact hi
  | one set =>
    rintro i j - ⟨rfl, c, hc, -⟩
    obtain ⟨hlt, -⟩ := Array.getElem?_eq_some_iff.mp hc
    exact hlt
  | assertion a =>
    rintro i j hi ⟨rfl, -⟩
    exact hi
  | seq p q ihp ihq =>
    rintro i k hi ⟨j, hp, hq⟩
    exact ihq j k (ihp i j hi hp) hq
  | alt p q ihp ihq =>
    rintro i j hi (hp | hq)
    · exact ihp i j hi hp
    · exact ihq i j hi hq
  | repeated p least most ih =>
    rintro i j hi ⟨more, -, htimes⟩
    exact ih.times i j hi htimes

def Within (size s : Nat) : Prop := ∀ i, s.testBit i = true → i ≤ size

def Follows (size : Nat) (R : Nat → Nat → Prop) (f : Nat → Nat) : Prop :=
  ∀ s, Within size s → ∀ j, (f s).testBit j = true ↔ ∃ i, s.testBit i = true ∧ R i j

section sets

variable {size : Nat} {R : Nat → Nat → Prop} {f : Nat → Nat} {s n fuel : Nat}

theorem Follows.within (hf : Follows size R f) (hR : StaysWithin size R) (hs : Within size s) :
    Within size (f s) := by
  intro j hj
  obtain ⟨i, hi, hstep⟩ := (hf s hs j).mp hj
  exact hR i j (hs i hi) hstep

theorem Within.union {t : Nat} (hs : Within size s) (ht : Within size t) :
    Within size (s ||| t) := by
  intro i hi
  rw [Nat.testBit_or, Bool.or_eq_true] at hi
  exact hi.elim (hs i) (ht i)

theorem follows_iterate (hf : Follows size R f) (hR : StaysWithin size R) :
    Follows size (Times R n) (iterate f n) := by
  induction n with
  | zero =>
    intro s _ j
    simp [iterate, Times]
  | succ n ih =>
    intro s hs k
    rw [iterate, ih (f s) (hf.within hR hs)]
    constructor
    · rintro ⟨j, hj, hrest⟩
      obtain ⟨i, hi, hstep⟩ := (hf s hs j).mp hj
      exact ⟨i, hi, j, hstep, hrest⟩
    · rintro ⟨i, hi, j, hstep, hrest⟩
      exact ⟨j, (hf s hs j).mpr ⟨i, hi, hstep⟩, hrest⟩

theorem follows_upTo (hf : Follows size R f) (hR : StaysWithin size R) :
    Follows size (fun i j => ∃ m ≤ n, Times R m i j) (upTo f n) := by
  induction n with
  | zero =>
    intro s _ j
    simp [upTo, Times]
  | succ n ih =>
    have hstays : StaysWithin size fun i j => ∃ m ≤ n, Times R m i j := by
      rintro i j hi ⟨m, -, htimes⟩
      exact hR.times i j hi htimes
    intro s hs k
    rw [upTo, Nat.testBit_or, Bool.or_eq_true, hf _ (ih.within hstays hs)]
    constructor
    · rintro (hk | ⟨j, hj, hstep⟩)
      · exact ⟨k, hk, 0, Nat.zero_le _, rfl⟩
      · obtain ⟨i, hi, m, hm, htimes⟩ := (ih s hs j).mp hj
        exact ⟨i, hi, m + 1, Nat.succ_le_succ hm, times_concat.mpr ⟨j, htimes, hstep⟩⟩
    · rintro ⟨i, hi, m, hm, htimes⟩
      rcases m with _ | m
      · exact Or.inl (htimes ▸ hi)
      · obtain ⟨j, hfirst, hstep⟩ := times_concat.mp htimes
        exact Or.inr ⟨j, (ih s hs j).mpr ⟨i, hi, m, Nat.le_of_succ_le_succ hm, hfirst⟩, hstep⟩

def missing (size s : Nat) : Finset Nat := (Finset.range (size + 1)).filter fun i => ¬s.testBit i = true

theorem card_missing_union_lt {t : Nat} (ht : Within size t) (hne : s ||| t ≠ s) :
    (missing size (s ||| t)).card < (missing size s).card := by
  obtain ⟨i, hi⟩ : ∃ i, (s ||| t).testBit i ≠ s.testBit i := by
    by_contra hall
    push Not at hall
    exact hne (Nat.eq_of_testBit_eq hall)
  have hnew : t.testBit i = true ∧ s.testBit i = false := by
    rw [Nat.testBit_or] at hi
    cases hs : s.testBit i <;> cases ht : t.testBit i <;> simp_all
  apply Finset.card_lt_card
  refine Finset.ssubset_iff_of_subset ?_ |>.mpr ⟨i, ?_, ?_⟩
  · intro j hj
    simp only [missing, Finset.mem_filter, Nat.testBit_or, Bool.or_eq_true, not_or] at hj ⊢
    exact ⟨hj.1, hj.2.1⟩
  · simp [missing, hnew.2, Nat.lt_succ_of_le (ht i hnew.1)]
  · simp [missing, Nat.testBit_or, hnew.1]

theorem testBit_closure_of_testBit {i : Nat} (hi : s.testBit i = true) :
    (closure f fuel s).testBit i = true := by
  induction fuel generalizing s with
  | zero => exact hi
  | succ fuel ih =>
    rw [closure]
    split
    · exact hi
    · exact ih (by rw [Nat.testBit_or, hi, Bool.true_or])

theorem testBit_closure_step (hf : Follows size R f) (hR : StaysWithin size R) (hs : Within size s)
    (hfuel : (missing size s).card < fuel) {i j : Nat}
    (hi : (closure f fuel s).testBit i = true) (hstep : R i j) :
    (closure f fuel s).testBit j = true := by
  induction fuel generalizing s with
  | zero => exact absurd hfuel (Nat.not_lt_zero _)
  | succ fuel ih =>
    have hnext := hf.within hR hs
    rw [closure] at hi ⊢
    split
    · rename_i hsame
      rw [if_pos hsame] at hi
      rw [← hsame, Nat.testBit_or, (hf s hs j).mpr ⟨i, hi, hstep⟩, Bool.or_true]
    · rename_i hnew
      rw [if_neg hnew] at hi
      -- A step that is not the last one takes a position out of the missing ones.
      have hless := card_missing_union_lt hnext hnew
      exact ih (hs.union hnext) (by omega) hi

theorem closure_sound (hf : Follows size R f) (hR : StaysWithin size R) (hs : Within size s) {k : Nat}
    (hk : (closure f fuel s).testBit k = true) :
    ∃ i, s.testBit i = true ∧ ∃ n, Times R n i k := by
  induction fuel generalizing s with
  | zero => exact ⟨k, hk, 0, rfl⟩
  | succ fuel ih =>
    rw [closure] at hk
    split at hk
    · exact ⟨k, hk, 0, rfl⟩
    · obtain ⟨j, hj, n, htimes⟩ := ih (hs.union (hf.within hR hs)) hk
      rw [Nat.testBit_or, Bool.or_eq_true, hf s hs] at hj
      rcases hj with hj | ⟨i, hi, hstep⟩
      · exact ⟨j, hj, n, htimes⟩
      · exact ⟨i, hi, n + 1, j, hstep, htimes⟩

theorem follows_closure (hf : Follows size R f) (hR : StaysWithin size R) :
    Follows size (fun i j => ∃ n, Times R n i j) (closure f (size + 1)) := by
  intro s hs k
  refine ⟨closure_sound hf hR hs, ?_⟩
  rintro ⟨i, hi, n, htimes⟩
  have hfuel : (missing size s).card < size + 1 := by
    have hless : missing size s ⊂ Finset.range (size + 1) := by
      refine Finset.ssubset_iff_of_subset (Finset.filter_subset _ _) |>.mpr ⟨i, ?_, ?_⟩
      · exact Finset.mem_range.mpr (Nat.lt_succ_of_le (hs i hi))
      · simp [hi]
    have hcard := Finset.card_lt_card hless
    rwa [Finset.card_range] at hcard
  -- Along the steps, every position is in the closed set if the first one is.
  have hclosed : ∀ n i, (closure f (size + 1) s).testBit i = true → Times R n i k →
      (closure f (size + 1) s).testBit k = true := by
    intro n
    induction n with
    | zero =>
      rintro i hi rfl
      exact hi
    | succ n ih =>
      rintro i hi ⟨j, hstep, hrest⟩
      exact ih j (testBit_closure_step hf hR hs hfuel hi hstep) hrest
  exact hclosed n i (testBit_closure_of_testBit hi) htimes

end sets

theorem follows_ends (text : Array Char) (p : Pattern) :
    Follows text.size (Spans text p) (ends text p) := by
  induction p with
  | empty =>
    intro s _ j
    simp [ends, Spans]
  | one set =>
    intro s _ j
    rw [ends, Nat.testBit_shiftLeft, Nat.testBit_and, testBit_positions]
    simp only [Bool.and_eq_true, decide_eq_true_eq, Spans]
    constructor
    · rintro ⟨hj, hs, hlt, hc⟩
      refine ⟨j - 1, hs, by omega, text[j - 1], Array.getElem?_eq_getElem hlt, ?_⟩
      simpa [Array.getElem?_eq_getElem hlt] using hc
    · rintro ⟨i, hi, rfl, c, hc, hset⟩
      obtain ⟨hlt, -⟩ := Array.getElem?_eq_some_iff.mp hc
      refine ⟨Nat.le_add_left 1 i, hi, hlt, ?_⟩
      rw [Nat.add_sub_cancel, hc]
      exact hset
  | assertion a =>
    intro s hs j
    rw [ends, Nat.testBit_and, testBit_positions]
    simp only [Bool.and_eq_true, decide_eq_true_eq, Spans]
    constructor
    · rintro ⟨hj, -, hholds⟩
      exact ⟨j, hj, rfl, hholds⟩
    · rintro ⟨i, hi, rfl, hholds⟩
      exact ⟨hi, Nat.lt_succ_of_le (hs i hi), hholds⟩
  | seq p q ihp ihq =>
    intro s hs k
    rw [ends, ihq _ (ihp.within (staysWithin_spans text p) hs)]
    constructor
    · rintro ⟨j, hj, hq⟩
      obtain ⟨i, hi, hp⟩ := (ihp s hs j).mp hj
      exact ⟨i, hi, j, hp, hq⟩
    · rintro ⟨i, hi, j, hp, hq⟩
      exact ⟨j, (ihp s hs j).mpr ⟨i, hi, hp⟩, hq⟩
  | alt p q ihp ihq =>
    intro s hs j
    rw [ends, Nat.testBit_or, Bool.or_eq_true, ihp s hs, ihq s hs, ← exists_or]
    simp only [Spans, and_or_left]
  | repeated p least most ih =>
    have hstays := staysWithin_spans text p
    have hleast := follows_iterate (n := least) ih hstays
    intro s hs k
    have hwithin := hleast.within hstays.times hs
    rcases most with _ | most
    · rw [ends, follows_closure ih hstays _ hwithin]
      constructor
      · rintro ⟨j, hj, more, hrest⟩
        obtain ⟨i, hi, hfirst⟩ := (hleast s hs j).mp hj
        exact ⟨i, hi, more, by simp, times_add.mpr ⟨j, hfirst, hrest⟩⟩
      · rintro ⟨i, hi, more, -, htimes⟩
        obtain ⟨j, hfirst, hrest⟩ := times_add.mp htimes
        exact ⟨j, (hleast s hs j).mpr ⟨i, hi, hfirst⟩, more, hrest⟩
    · rw [ends, follows_upTo ih hstays _ hwithin]
      constructor
      · rintro ⟨j, hj, more, hmore, hrest⟩
        obtain ⟨i, hi, hfirst⟩ := (hleast s hs j).mp hj
        exact ⟨i, hi, more, by simpa using hmore, times_add.mpr ⟨j, hfirst, hrest⟩⟩
      · rintro ⟨i, hi, more, hmore, htimes⟩
        obtain ⟨j, hfirst, hrest⟩ := times_add.mp htimes
        exact ⟨j, (hleast s hs j).mpr ⟨i, hi, hfirst⟩, more, by simpa using hmore, hrest⟩

theorem isFoundIn_iff (p : Pattern) (text : String) : p.isFoundIn text = true ↔
    ∃ i j, i ≤ text.toList.length ∧ Spans text.toList.toArray p i j := by
  have hstart (i : Nat) : (1 <<< (text.toList.toArray.size + 1) - 1).testBit i = true ↔
      i ≤ text.toList.length := by
    rw [Nat.one_shiftLeft, Nat.testBit_two_pow_sub_one, decide_eq_true_eq, List.size_toArray,
      Nat.lt_succ_iff]
  have hends := follows_ends text.toList.toArray p (1 <<< (text.toList.toArray.size + 1) - 1)
    fun i hi => by simpa using (hstart i).mp hi
  rw [isFoundIn, bne_iff_ne]
  constructor
  · intro hsome
    by_contra hnone
    refine hsome (Nat.zero_of_testBit_eq_false fun j => Bool.eq_false_iff.mpr fun hj => ?_)
    obtain ⟨i, hi, hspans⟩ := (hends j).mp hj
    exact hnone ⟨i, j, (hstart i).mp hi, hspans⟩
  · rintro ⟨i, j, hi, hspans⟩ hzero
    have hj := (hends j).mpr ⟨i, (hstart i).mpr hi, hspans⟩
    rw [hzero, Nat.zero_testBit] at hj
    cases hj

end RelDoc.Pattern
