import Mathlib.Tactic.IntervalCases
import Mathlib.Tactic.SplitIfs
import RelDoc.Calendar.Instant

namespace RelDoc.Calendar

theorem yearOfEra_bounds {day year : ℕ} (hday : day < 146097)
    (hyear : year = (day - day / 1460 + day / 36524 - day / 146096) / 365) :
    year < 400 ∧ 365 * year + year / 4 - year / 100 ≤ day ∧
      day - (365 * year + year / 4 - year / 100) ≤ 365 := by
  have hcentury : year / 100 = day / 36524 - day / 146096 := by
    have hle : day / 36524 ≤ 4 := by omega
    interval_cases h : day / 36524 <;> omega
  have hleap : year / 4 ≤ day / 1460 ∧ day / 1460 ≤ year / 4 + 1 := by omega
  omega

def ofMarch (era : ℤ) (year month day : ℕ) : Date :=
  if month < 10 then ⟨era * 400 + year, month + 3, day + 1⟩
  else ⟨era * 400 + year + 1, month - 9, day + 1⟩

theorem toDays_ofMarch (era : ℤ) {year month : ℕ} (day : ℕ) (hyear : year < 400)
    (hmonth : month < 12) : (ofMarch era year month day).toDays =
      era * 146097 + (year * 365 + year / 4 - year / 100 + ((153 * month + 2) / 5 + day) : ℕ) -
        719468 := by
  have hera : (era * 400 + year) / 400 = era := by omega
  have hmod : ((era * 400 + year) % 400).toNat = year := by omega
  have hday (k : ℕ) : k + (day + 1) - 1 = k + day := rfl
  rw [ofMarch]
  split
  · dsimp only [Date.toDays]
    rw [if_neg (by omega), if_pos (by omega), hera, hmod, Nat.add_sub_cancel, hday]
  · have hyear' : era * 400 + year + 1 - 1 = era * 400 + year := by omega
    have hmonth' : month - 9 + 9 = month := by omega
    dsimp only [Date.toDays]
    rw [if_pos (by omega), if_neg (by omega), hyear', hera, hmod, hmonth', hday]

theorem ofDays_eq (n : ℤ) : ∃ year month day : ℕ, year < 400 ∧ month < 12 ∧ day < 31 ∧
    Date.ofDays n = ofMarch ((n + 719468) / 146097) year month day ∧
      (n + 719468) % 146097 =
        (year * 365 + year / 4 - year / 100 + ((153 * month + 2) / 5 + day) : ℕ) := by
  obtain ⟨doe, hdoe⟩ : ∃ doe : ℕ, (n + 719468) % 146097 = doe :=
    Int.eq_ofNat_of_zero_le (by omega)
  obtain ⟨year, hyear⟩ : ∃ year, year = (doe - doe / 1460 + doe / 36524 - doe / 146096) / 365 :=
    ⟨_, rfl⟩
  obtain ⟨hlt, hstart, hend⟩ := yearOfEra_bounds (by omega) hyear
  obtain ⟨rest, hrest⟩ : ∃ rest, rest = doe - (365 * year + year / 4 - year / 100) := ⟨_, rfl⟩
  rw [← hrest] at hend
  refine ⟨year, (5 * rest + 2) / 153, rest - (153 * ((5 * rest + 2) / 153) + 2) / 5, hlt, by omega,
    by omega, ?_, ?_⟩
  · rw [Date.ofDays, hdoe, Int.toNat_natCast, ← hyear, ← hrest, ofMarch]
    split
    · rw [if_neg (by omega)]
    · rw [if_pos (by omega)]
  · rw [hdoe]
    omega

theorem toDays_ofDays (n : ℤ) : (Date.ofDays n).toDays = n := by
  obtain ⟨year, month, day, hyear, hmonth, -, hdate, hrest⟩ := ofDays_eq n
  rw [hdate, toDays_ofMarch _ _ hyear hmonth, ← hrest]
  omega

theorem ofDays_bounds (n : ℤ) : (Date.ofDays n).month < 100 ∧ (Date.ofDays n).day < 100 := by
  obtain ⟨year, month, day, -, hmonth, hday, hdate, -⟩ := ofDays_eq n
  rw [hdate, ofMarch]
  split
  · exact ⟨by dsimp only; omega, by dsimp only; omega⟩
  · exact ⟨by dsimp only; omega, by dsimp only; omega⟩

theorem toList_padded (width n : ℕ) : (padded width n).toList =
    List.replicate (width - (Nat.toDigits 10 n).length) '0' ++ Nat.toDigits 10 n :=
  String.toList_ofList

theorem ofDigitChars_padded (width n : ℕ) : Nat.ofDigitChars 10 (padded width n).toList 0 = n := by
  rw [toList_padded, Nat.ofDigitChars_append, Nat.ofDigitChars_replicate_zero]
  exact Nat.ofDigitChars_ten_toDigits

theorem length_padded {width n : ℕ} (hwidth : 0 < width) (hn : n < 10 ^ width) :
    (padded width n).toList.length = width := by
  have hlength := (Nat.length_toDigits_le_iff (by decide) hwidth).mpr hn
  rw [toList_padded, List.length_append, List.length_replicate]
  omega

theorem isDigit_of_mem_padded {width n : ℕ} {c : Char} (hc : c ∈ (padded width n).toList) :
    c.isDigit = true := by
  rw [toList_padded, List.mem_append] at hc
  rcases hc with hc | hc
  · rw [List.eq_of_mem_replicate hc]
    rfl
  · exact Nat.isDigit_of_mem_toDigits (by decide) (by decide) hc

theorem padded_inj {width m n : ℕ} (h : (padded width m).toList = (padded width n).toList) :
    m = n := by
  rw [← ofDigitChars_padded width m, h, ofDigitChars_padded]

theorem padded_append_inj {width m n : ℕ} {x y : List Char} (hwidth : 0 < width)
    (hm : m < 10 ^ width) (hn : n < 10 ^ width)
    (h : (padded width m).toList ++ x = (padded width n).toList ++ y) : m = n ∧ x = y := by
  have hlength : (padded width m).toList.length = (padded width n).toList.length := by
    rw [length_padded hwidth hm, length_padded hwidth hn]
  obtain ⟨hpadded, hrest⟩ := List.append_inj h hlength
  exact ⟨padded_inj hpadded, hrest⟩

def readYear : List Char → ℤ
  | '-' :: cs => -Nat.ofDigitChars 10 cs 0
  | '+' :: cs => Nat.ofDigitChars 10 cs 0
  | cs => Nat.ofDigitChars 10 cs 0

theorem readYear_yearText (year : ℤ) : readYear (yearText year).toList = year := by
  have hvalue := ofDigitChars_padded 4 year.natAbs
  rw [yearText, String.toList_append]
  split
  case isTrue hneg =>
    have hsign : "-".toList = ['-'] := rfl
    rw [hsign, List.singleton_append, readYear]
    omega
  case isFalse hnonneg =>
    split
    case isTrue hlarge =>
      have hsign : "+".toList = ['+'] := rfl
      rw [hsign, List.singleton_append, readYear]
      omega
    case isFalse =>
      rw [String.toList_empty, List.nil_append]
      have hdigits : ∀ c ∈ (padded 4 year.natAbs).toList, c.isDigit = true :=
        fun c hc => isDigit_of_mem_padded hc
      rw [readYear]
      · omega
      · rintro cs heq
        rw [heq] at hdigits
        exact absurd (hdigits '-' List.mem_cons_self) (by decide)
      · rintro cs heq
        rw [heq] at hdigits
        exact absurd (hdigits '+' List.mem_cons_self) (by decide)

theorem Date.toList_text (d : Date) : d.text.toList = (yearText d.year).toList ++
    ('-' :: (padded 2 d.month).toList ++ '-' :: (padded 2 d.day).toList) := by
  simp [Date.text]

theorem Date.text_inj {d e : Date} (hd : d.month < 100 ∧ d.day < 100)
    (he : e.month < 100 ∧ e.day < 100) (h : d.text.toList = e.text.toList) : d = e := by
  have hlength {d : Date} (hd : d.month < 100 ∧ d.day < 100) :
      ('-' :: (padded 2 d.month).toList ++ '-' :: (padded 2 d.day).toList).length = 6 := by
    rw [List.length_append, List.length_cons, List.length_cons, length_padded (by decide) hd.1,
      length_padded (by decide) hd.2]
  rw [d.toList_text, e.toList_text] at h
  obtain ⟨hyear, hrest⟩ := List.append_inj' h ((hlength hd).trans (hlength he).symm)
  obtain ⟨hmonth, hday⟩ := padded_append_inj (by decide) hd.1 he.1 (List.cons.inj hrest).2
  rcases d with ⟨year, month, day⟩
  rcases e with ⟨year', month', day'⟩
  obtain rfl : year = year' := by rw [← readYear_yearText year, hyear, readYear_yearText]
  obtain rfl : month = month' := hmonth
  obtain rfl : day = day' := padded_inj (List.cons.inj hday).2
  rfl

theorem append_cons_inj {c : Char} {x y a b : List Char} (hx : c ∉ x) (hy : c ∉ y)
    (h : x ++ c :: a = y ++ c :: b) : x = y ∧ a = b := by
  induction x generalizing y with
  | nil =>
    rcases y with _ | ⟨d, y⟩
    · exact ⟨rfl, (List.cons.inj h).2⟩
    · exact absurd (List.mem_cons.mpr (Or.inl (List.cons.inj h).1)) hy
  | cons d x ih =>
    rcases y with _ | ⟨d', y⟩
    · exact absurd (List.mem_cons.mpr (Or.inl (List.cons.inj h).1.symm)) hx
    · obtain ⟨rfl, htail⟩ := List.cons.inj h
      rw [List.mem_cons, not_or] at hx hy
      obtain ⟨rfl, hrest⟩ := ih hx.2 hy.2 htail
      exact ⟨rfl, hrest⟩

theorem Date.notMem_text (d : Date) : 'T' ∉ d.text.toList := by
  have hpadded (width n : ℕ) : 'T' ∉ (padded width n).toList :=
    fun h => absurd (isDigit_of_mem_padded h) (by decide)
  have hyear : 'T' ∉ (yearText d.year).toList := by
    rw [yearText, String.toList_append, List.mem_append]
    rintro (h | h)
    · split at h
      · exact absurd h (by decide)
      · split at h
        · exact absurd h (by decide)
        · exact absurd h (by decide)
    · exact hpadded 4 _ h
  rw [d.toList_text]
  simp [hyear, hpadded]

namespace Instant

def readFraction (cs : List Char) : ℕ :=
  Nat.ofDigitChars 10 (cs.drop 1) 0 * 10 ^ (9 - (cs.drop 1).length)

theorem readFraction_fractionText {nanos : ℕ} (h : nanos < 1000000000) :
    readFraction (fractionText nanos).toList = nanos := by
  have hread {width n : ℕ} (hwidth : 0 < width) (hn : n < 10 ^ width) :
      readFraction ("." ++ padded width n).toList = n * 10 ^ (9 - width) := by
    have hdrop : ("." ++ padded width n).toList.drop 1 = (padded width n).toList := by
      rw [String.toList_append]
      rfl
    rw [readFraction, hdrop, ofDigitChars_padded, length_padded hwidth hn]
  rw [fractionText]
  split
  case isTrue hzero =>
    subst hzero
    rfl
  case isFalse =>
    split
    case isTrue hmillis =>
      rw [hread (by decide) (by omega)]
      omega
    case isFalse =>
      split
      case isTrue hmicros =>
        rw [hread (by decide) (by omega)]
        omega
      case isFalse =>
        rw [hread (by decide) (by omega)]
        omega

/-- Is an instant on a clock, whose leap seconds are the last ones of their minutes? -/
def isOnClock (t : Instant) : Bool :=
  t.nanos < 1000000000 || t.seconds % 60 == 59 && t.nanos < 2000000000

def shownSecond (t : Instant) : ℕ :=
  if 1000000000 ≤ t.nanos then t.secondOfDay % 60 + 1 else t.secondOfDay % 60

def shownNanos (t : Instant) : ℕ :=
  if 1000000000 ≤ t.nanos then t.nanos - 1000000000 else t.nanos

theorem toList_text (zone : String) (t : Instant) : (t.text zone).toList =
    t.date.text.toList ++ 'T' :: ((padded 2 (t.secondOfDay / 3600)).toList ++
      (':' :: ((padded 2 (t.secondOfDay / 60 % 60)).toList ++
        (':' :: ((padded 2 t.shownSecond).toList ++
          ((fractionText t.shownNanos).toList ++ zone.toList)))))) := by
  simp [text, shownSecond, shownNanos]

theorem secondOfDay_lt (t : Instant) : t.secondOfDay < 86400 := by
  rw [secondOfDay]
  omega

theorem date_bounds (t : Instant) : t.date.month < 100 ∧ t.date.day < 100 := ofDays_bounds _

theorem toDays_date (t : Instant) : t.date.toDays = t.seconds / 86400 := toDays_ofDays _

theorem eq_of_shown {t u : Instant} (ht : t.isOnClock = true) (hu : u.isOnClock = true)
    (hday : t.seconds / 86400 = u.seconds / 86400)
    (hhour : t.secondOfDay / 3600 = u.secondOfDay / 3600)
    (hminute : t.secondOfDay / 60 % 60 = u.secondOfDay / 60 % 60)
    (hsecond : t.shownSecond = u.shownSecond) (hnanos : t.shownNanos = u.shownNanos) : t = u := by
  rcases t with ⟨seconds, nanos⟩
  rcases u with ⟨seconds', nanos'⟩
  simp only [isOnClock, Bool.or_eq_true, decide_eq_true_eq, Bool.and_eq_true, beq_iff_eq] at ht hu
  simp only [shownSecond, shownNanos, secondOfDay] at *
  rw [mk.injEq]
  split_ifs at hsecond hnanos <;> omega

theorem text_inj {zone : String} {t u : Instant} (ht : t.isOnClock = true)
    (hu : u.isOnClock = true) (h : t.text zone = u.text zone) : t = u := by
  have hbounds (t : Instant) : t.secondOfDay / 3600 < 10 ^ 2 ∧ t.secondOfDay / 60 % 60 < 10 ^ 2 ∧
      t.shownSecond < 10 ^ 2 := by
    have hlt := t.secondOfDay_lt
    rw [shownSecond]
    split <;> omega
  have hnanos {t : Instant} (ht : t.isOnClock = true) : t.shownNanos < 1000000000 := by
    simp only [isOnClock, Bool.or_eq_true, decide_eq_true_eq, Bool.and_eq_true] at ht
    rw [shownNanos]
    split <;> omega
  have hlists := congrArg String.toList h
  rw [t.toList_text, u.toList_text] at hlists
  obtain ⟨hdate, htime⟩ :=
    append_cons_inj t.date.notMem_text u.date.notMem_text hlists
  obtain ⟨hhour, htime⟩ := padded_append_inj (by decide) (hbounds t).1 (hbounds u).1 htime
  obtain ⟨hminute, htime⟩ := padded_append_inj (by decide) (hbounds t).2.1 (hbounds u).2.1
    (List.cons.inj htime).2
  obtain ⟨hsecond, htime⟩ := padded_append_inj (by decide) (hbounds t).2.2 (hbounds u).2.2
    (List.cons.inj htime).2
  have hfraction := List.append_cancel_right htime
  have hday : t.seconds / 86400 = u.seconds / 86400 := by
    have hdate' : t.date = u.date := Date.text_inj t.date_bounds u.date_bounds hdate
    rw [← toDays_date t, hdate', toDays_date u]
  have hshown : t.shownNanos = u.shownNanos := by
    rw [← readFraction_fractionText (hnanos ht), hfraction, readFraction_fractionText (hnanos hu)]
  exact eq_of_shown ht hu hday hhour hminute hsecond hshown

end Instant

end RelDoc.Calendar
