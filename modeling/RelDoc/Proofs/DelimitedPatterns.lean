import Mathlib.Data.List.TakeWhile
import RelDoc.Pattern.Operands

namespace RelDoc.Pattern.Delimited

variable {p f cs : List Char} {c : Char}

theorem mem_letters (c : Char) : c ∈ letters ↔ c.isAlpha = true := by
  have hcodes : letters = (List.range' 65 26 ++ List.range' 97 26).map Char.ofNat := by decide
  constructor
  · have hall : letters.all Char.isAlpha = true := by decide
    exact List.all_eq_true.mp hall c
  · intro h
    rw [hcodes]
    refine List.mem_map.mpr ⟨c.toNat, ?_, Char.ofNat_toNat c⟩
    have hcode : (65 ≤ c.toNat ∧ c.toNat ≤ 90) ∨ (97 ≤ c.toNat ∧ c.toNat ≤ 122) := by
      rcases Bool.or_eq_true_iff.mp h with hupper | hlower
      · exact Or.inl (decide_eq_true_iff.mp hupper)
      · obtain ⟨hlow, hhigh⟩ := Bool.and_eq_true_iff.mp hlower
        exact Or.inr ⟨decide_eq_true_iff.mp hlow, decide_eq_true_iff.mp hhigh⟩
    simp only [List.mem_append, List.mem_range'_1]
    omega

theorem all_letters_iff (cs : List Char) :
    cs.all letters.contains = true ↔ ∀ c ∈ cs, c.isAlpha = true := by
  simp only [List.all_eq_true, List.contains_iff_mem, mem_letters]

theorem pairwise_letters : letters.Pairwise (· < ·) := by decide

theorem mem_options (h : ∀ c ∈ f, c.isAlpha = true) : c ∈ options f ↔ c ∈ f := by
  rw [options, List.mem_filter, List.contains_iff_mem]
  refine and_iff_right_of_imp fun hc => ?_
  exact (mem_letters c).mpr (h c hc)

theorem options_options (f : List Char) : options (options f) = options f := by
  refine List.filter_congr fun c hc => ?_
  rw [Bool.eq_iff_iff, List.contains_iff_mem, options, List.mem_filter]
  exact and_iff_right hc

theorem splitLast?_append (h : '/' ∉ f) : splitLast? (p ++ '/' :: f) = some (p, f) := by
  have hplain : ∀ c ∈ f.reverse, decide (c ≠ '/') = true := by
    intro c hc
    rw [decide_eq_true_iff]
    rintro rfl
    exact h (List.mem_reverse.mp hc)
  have hreverse : (p ++ '/' :: f).reverse = f.reverse ++ '/' :: p.reverse := by simp
  rw [splitLast?, hreverse, List.dropWhile_append_of_pos hplain, List.takeWhile_append_of_pos hplain]
  simp

theorem splitLast?_of_not_mem (h : '/' ∉ cs) : splitLast? cs = none := by
  have hdrop : cs.reverse.dropWhile (· ≠ '/') = [] := by
    rw [List.dropWhile_eq_nil_iff]
    intro c hc
    rw [decide_eq_true_iff]
    rintro rfl
    exact h (List.mem_reverse.mp hc)
  rw [splitLast?, hdrop]

theorem exists_last_slash (h : '/' ∈ cs) : ∃ p f, cs = p ++ '/' :: f ∧ '/' ∉ f := by
  obtain ⟨front, rest, hreverse, hfront⟩ := List.eq_append_cons_of_mem (List.mem_reverse.mpr h)
  refine ⟨rest.reverse, front.reverse, ?_, fun hmem => hfront (List.mem_reverse.mp hmem)⟩
  rw [← List.reverse_reverse cs, hreverse]
  simp

def framed (p f : String) : String := "/" ++ p ++ "/" ++ f

structure SortedLetters (f options : String) : Prop where
  ascending : options.toList.Pairwise (· < ·)
  same : ∀ c, c ∈ options.toList ↔ c ∈ f.toList

theorem sortedLetters_options {f : String} (h : ∀ c ∈ f.toList, c.isAlpha = true) :
    SortedLetters f (String.ofList (options f.toList)) := by
  constructor
  · rw [String.toList_ofList]
    exact pairwise_letters.filter _
  · intro c
    rw [String.toList_ofList, mem_options h]

theorem toList_framed (p f : String) :
    (framed p f).toList = '/' :: (p.toList ++ '/' :: f.toList) := by
  simp [framed]

theorem parse?_framed (h : '/' ∉ f) : parse? ('/' :: (p ++ '/' :: f)) =
    if f.all letters.contains then some (p, options f) else none := by
  rw [parse?, splitLast?_append h]
  rfl

theorem not_mem_of_isAlpha (h : ∀ c ∈ f, c.isAlpha = true) : '/' ∉ f := fun hslash =>
  absurd (h '/' hslash) (by decide)

theorem regex_framed {p f : String} (h : ∀ c ∈ f.toList, c.isAlpha = true) :
    regex (.string (framed p f)) = .ok (.regex p (String.ofList (options f.toList))) := by
  rw [regex, toList_framed, parse?_framed (not_mem_of_isAlpha h), (all_letters_iff _).mpr h]
  simp

theorem regex_bare {t : String} (h : t.toList.head? ≠ some '/') :
    regex (.string t) = .ok (.regex t "") := by
  have hparse : parse? t.toList = some (t.toList, []) := by
    unfold parse?
    split
    · rename_i hslash
      rw [hslash] at h
      exact absurd rfl h
    · rfl
  rw [regex, hparse]
  simp

theorem regex_unclosed {t : String} {body : List Char} (ht : t.toList = '/' :: body)
    (h : '/' ∉ body) : regex (.string t) = .error (.malformedRegex t) := by
  rw [regex, ht, parse?, splitLast?_of_not_mem h]
  rfl

theorem regex_misspelt {p f : String} (hslash : '/' ∉ f.toList)
    (h : ∃ c ∈ f.toList, c.isAlpha = false) :
    regex (.string (framed p f)) = .error (.malformedRegex (framed p f)) := by
  have hletters : f.toList.all letters.contains = false := by
    rw [Bool.eq_false_iff, Ne, all_letters_iff]
    obtain ⟨c, hc, hother⟩ := h
    exact fun hall => absurd (hall c hc) (by rw [hother]; exact Bool.false_ne_true)
  rw [regex, toList_framed, parse?_framed hslash, hletters]
  rfl

theorem cases_of_slash {t : String} (h : t.toList.head? = some '/') :
    (∃ body, t.toList = '/' :: body ∧ '/' ∉ body) ∨ ∃ p f, t = framed p f ∧ '/' ∉ f.toList := by
  obtain ⟨body, ht⟩ := List.head?_eq_some_iff.mp h
  by_cases hslash : '/' ∈ body
  · obtain ⟨p, f, rfl, hf⟩ := exists_last_slash hslash
    refine Or.inr ⟨String.ofList p, String.ofList f, ?_, by rwa [String.toList_ofList]⟩
    rw [← String.toList_inj, ht, toList_framed, String.toList_ofList, String.toList_ofList]
  · exact Or.inl ⟨body, ht, hslash⟩

theorem regex_reframed {p f : String} (h : ∀ c ∈ f.toList, c.isAlpha = true) :
    regex (.string (framed p (String.ofList (options f.toList)))) =
      .ok (.regex p (String.ofList (options f.toList))) := by
  have hletters : ∀ c ∈ (String.ofList (options f.toList)).toList, c.isAlpha = true := by
    intro c hc
    rw [String.toList_ofList, mem_options h] at hc
    exact h c hc
  rw [regex_framed hletters, String.toList_ofList, options_options]

theorem regex_round_trip (p f t : String) :
    ((∀ c ∈ f.toList, c.isAlpha = true) →
      ∃ o, SortedLetters f o ∧ regex (.string (framed p f)) = .ok (.regex p o)) ∧
    (t.toList.head? ≠ some '/' → regex (.string t) = .ok (.regex t "")) ∧
    (t.toList.head? = some '/' →
      (regex (.string t) = .error (.malformedRegex t) ↔ t.toList.count '/' = 1 ∨
        ∃ p f, t = framed p f ∧ '/' ∉ f.toList ∧ ∃ c ∈ f.toList, c.isAlpha = false) ∧
      ∀ p o, regex (.string t) = .ok (.regex p o) →
        regex (.string (framed p o)) = .ok (.regex p o)) := by
  refine ⟨fun h => ⟨_, sortedLetters_options h, regex_framed h⟩, regex_bare, fun h => ?_⟩
  rcases cases_of_slash h with ⟨body, ht, hbody⟩ | ⟨p, f, rfl, hslash⟩
  · have hcount : t.toList.count '/' = 1 := by
      rw [ht, List.count_cons_self, List.count_eq_zero.mpr hbody]
    have herror := regex_unclosed ht hbody
    refine ⟨iff_of_true herror (Or.inl hcount), fun p o hread => ?_⟩
    rw [herror] at hread
    cases hread
  · by_cases hletters : ∀ c ∈ f.toList, c.isAlpha = true
    · have hread := regex_framed (p := p) hletters
      constructor
      · rw [hread]
        refine iff_of_false nofun ?_
        rintro (hcount | ⟨p', f', hsame, hslash', hother⟩)
        · rw [toList_framed, List.count_cons_self, List.count_append, List.count_cons_self] at hcount
          omega
        · rw [hsame, regex_misspelt hslash' hother] at hread
          cases hread
      · intro p' o hread'
        rw [hread] at hread'
        cases hread'
        exact regex_reframed hletters
    · have hother : ∃ c ∈ f.toList, c.isAlpha = false := by
        simpa only [not_forall, exists_prop, Bool.not_eq_true] using hletters
      have herror := regex_misspelt (p := p) hslash hother
      refine ⟨iff_of_true herror (Or.inr ⟨p, f, rfl, hslash, hother⟩), fun p' o hread => ?_⟩
      rw [herror] at hread
      cases hread

theorem regex_round_trip_slashes :
    (∀ c ∈ "xiMi".toList, c.isAlpha = true) ∧ "a+".toList.head? ≠ some '/' ∧
      (∃ o, SortedLetters "xiMi" o ∧ regex (.string (framed "a/é/" "xiMi")) = .ok (.regex "a/é/" o)) ∧
      regex (.string "a+") = .ok (.regex "a+" "") ∧ "/a/ i".toList.head? = some '/' ∧
      regex (.string "/a/ i") = .error (.malformedRegex "/a/ i") := by
  have hletters : ∀ c ∈ "xiMi".toList, c.isAlpha = true := List.all_eq_true.mp (by decide)
  have hbare : "a+".toList.head? ≠ some '/' := by decide
  have hslash : "/a/ i".toList.head? = some '/' := by decide
  refine ⟨hletters, hbare, (regex_round_trip "a/é/" "xiMi" "").1 hletters,
    (regex_round_trip "" "" "a+").2.1 hbare, hslash, ?_⟩
  refine ((regex_round_trip "" "" "/a/ i").2.2 hslash).1.mpr (Or.inr ⟨"a", " i", by decide, ?_⟩)
  exact ⟨by decide, ' ', by decide, by decide⟩

end RelDoc.Pattern.Delimited
