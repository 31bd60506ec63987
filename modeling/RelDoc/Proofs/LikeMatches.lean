import RelDoc.Proofs.CaseFolding
import RelDoc.Proofs.LikePatterns
import RelDoc.Proofs.PatternSearches

namespace RelDoc.Pattern.Like

open Text

inductive Matches : List Char → List Char → Prop
  | done : Matches [] []
  | percent {p t : List Char} (h : Matches p t) : Matches ('\\' :: '%' :: p) ('%' :: t)
  | anything {p t : List Char} (skipped : List Char) (h : Matches p t) :
      Matches ('%' :: p) (skipped ++ t)
  | letter {c d : Char} {p t : List Char} (hc : c ≠ '%') (hescape : c = '\\' → p.head? ≠ some '%')
      (hletter : SameLetter c d) (h : Matches p t) : Matches (c :: p) (d :: t)

def Fits : List Token → List Char → Prop
  | [], t => t = []
  | .literal c :: ts, t => ∃ d rest, t = d :: rest ∧ SameLetter c d ∧ Fits ts rest
  | .anything :: ts, t => ∃ skipped rest, t = skipped ++ rest ∧ Fits ts rest

theorem eq_of_sameLetter_percent {d : Char} (h : SameLetter '%' d) : d = '%' := by
  have horbit : caseOrbit 0x25 = [0x25] := by decide +kernel
  have hmem : d.toNat ∈ caseOrbit 0x25 := mem_caseOrbit_iff.mpr h.symm
  rw [horbit, List.mem_singleton] at hmem
  rw [← Char.ofNat_toNat d, hmem]

theorem tokens_percent (p : List Char) : tokens ('\\' :: '%' :: p) = .literal '%' :: tokens p := by
  rw [tokens]

theorem tokens_anything (p : List Char) : tokens ('%' :: p) = .anything :: tokens p := by
  rw [tokens]

theorem tokens_letter {c : Char} {p : List Char} (hc : c ≠ '%')
    (hescape : c = '\\' → p.head? ≠ some '%') : tokens (c :: p) = .literal c :: tokens p := by
  rw [tokens]
  · rintro rest rfl rfl
    exact hescape rfl rfl
  · exact hc

theorem matches_iff_fits (p t : List Char) : Matches p t ↔ Fits (tokens p) t := by
  constructor
  · intro h
    induction h with
    | done => rfl
    | percent h ih =>
      rw [tokens_percent]
      exact ⟨'%', _, rfl, rfl, ih⟩
    | anything skipped h ih =>
      rw [tokens_anything]
      exact ⟨skipped, _, rfl, ih⟩
    | letter hc hescape hletter h ih =>
      rw [tokens_letter hc hescape]
      exact ⟨_, _, rfl, hletter, ih⟩
  · intro h
    fun_induction tokens p generalizing t with
    | case1 =>
      obtain rfl := h
      exact .done
    | case2 p ih =>
      obtain ⟨d, rest, rfl, hletter, hrest⟩ := h
      rw [eq_of_sameLetter_percent hletter]
      exact .percent (ih rest hrest)
    | case3 p ih =>
      obtain ⟨skipped, rest, rfl, hrest⟩ := h
      exact .anything skipped (ih rest hrest)
    | case4 c p hescape hc ih =>
      obtain ⟨d, rest, rfl, hletter, hrest⟩ := h
      refine .letter hc (fun hslash hhead => ?_) hletter (ih rest hrest)
      obtain ⟨more, rfl⟩ := List.head?_eq_some_iff.mp hhead
      exact hescape more hslash rfl

theorem Fits.append {ts : List Token} {t : List Char} (h : Fits (ts ++ [.anything]) t)
    (more : List Char) : Fits (ts ++ [.anything]) (t ++ more) := by
  induction ts generalizing t with
  | nil =>
    obtain ⟨skipped, rest, rfl, hrest⟩ := h
    obtain rfl : rest = [] := hrest
    exact ⟨skipped ++ more, [], by simp, rfl⟩
  | cons token ts ih =>
    cases token with
    | literal c =>
      obtain ⟨d, rest, rfl, hletter, hrest⟩ := h
      exact ⟨d, rest ++ more, rfl, hletter, ih hrest⟩
    | anything =>
      obtain ⟨skipped, rest, rfl, hrest⟩ := h
      exact ⟨skipped, rest ++ more, by simp, ih hrest⟩

theorem exists_tokens_of_head? {p : List Char} (h : p.head? = some '%') :
    ∃ ts, tokens p = .anything :: ts := by
  obtain ⟨rest, rfl⟩ := List.head?_eq_some_iff.mp h
  exact ⟨_, tokens_anything rest⟩

theorem exists_tokens_of_getLast? {p : List Char} (h : p.getLast? = some '%')
    (hescaped : ¬['\\', '%'] <:+ p) : ∃ ts, tokens p = ts ++ [.anything] := by
  have hlonger {c : Char} {rest : List Char} (hrest : ¬['\\', '%'] <:+ c :: rest) :
      ¬['\\', '%'] <:+ rest := fun hsuffix => hrest (hsuffix.trans (List.suffix_cons c rest))
  fun_induction tokens p with
  | case1 => cases h
  | case2 rest ih =>
    rcases rest with _ | ⟨c, rest⟩
    · exact absurd (List.suffix_refl _) hescaped
    · obtain ⟨ts, hts⟩ := ih (by simpa using h) (hlonger (hlonger hescaped))
      exact ⟨.literal '%' :: ts, by rw [hts]; rfl⟩
  | case3 rest ih =>
    rcases rest with _ | ⟨c, rest⟩
    · exact ⟨[], rfl⟩
    · obtain ⟨ts, hts⟩ := ih (by simpa using h) (hlonger hescaped)
      exact ⟨.anything :: ts, by rw [hts]; rfl⟩
  | case4 c rest hescape hc ih =>
    rcases rest with _ | ⟨next, rest⟩
    · exact absurd (Option.some.inj h) hc
    · obtain ⟨ts, hts⟩ := ih (by simpa using h) (hlonger hescaped)
      exact ⟨.literal c :: ts, by rw [hts]; rfl⟩

def caseFlags : Flags := ⟨true, false, false, false⟩

def chain (ps : List Pattern) : Pattern := sequence (ps.map some).reverse

theorem chain_cons (p : Pattern) (ps : List Pattern) : chain (p :: ps) = .seq p (chain ps) := by
  simp [chain, sequence, List.foldl_append]

variable {a b : List Char} {j k n : Nat}

theorem spans_one (set : CharSet) : Spans (a ++ b).toArray (.one set) a.length j ↔
    ∃ d rest, b = d :: rest ∧ set.contains d = true ∧ j = (a ++ [d]).length := by
  have hnext : (a ++ b).toArray[a.length]? = b.head? := by
    rw [List.getElem?_toArray, List.getElem?_append_right (Nat.le_refl _), Nat.sub_self,
      List.head?_eq_getElem?]
  rw [Spans, hnext]
  cases b with
  | nil => simp
  | cons d rest => simp [and_comm]

theorem spans_literal (c : Char) :
    Spans (a ++ b).toArray ((Token.literal c).item caseFlags) a.length j ↔
      ∃ d rest, b = d :: rest ∧ SameLetter c d ∧ j = (a ++ [d]).length := by
  simp only [← CharSet.contains_folded_single]
  exact spans_one _

theorem contains_dot {d : Char} (hd : d ≠ '\n') :
    (CharSet.compl (.single '\n')).contains d = true := by
  rw [CharSet.contains, Bool.not_eq_true', CharSet.contains_single, beq_eq_false_iff_ne]
  exact fun h => hd (Char.toNat_inj.mp h).symm

theorem times_dot (hb : '\n' ∉ b) :
    Times (Spans (a ++ b).toArray (Reader.dot caseFlags)) n a.length j ↔
      ∃ skipped rest, b = skipped ++ rest ∧ skipped.length = n ∧ j = (a ++ skipped).length := by
  induction n generalizing a b with
  | zero =>
    constructor
    · rintro rfl
      exact ⟨[], b, rfl, rfl, by rw [List.append_nil]⟩
    · rintro ⟨skipped, rest, -, hnil, rfl⟩
      rw [List.eq_nil_of_length_eq_zero hnil, List.append_nil]
      rfl
  | succ n ih =>
    constructor
    · rintro ⟨l, hstep, hrest⟩
      obtain ⟨d, rest, rfl, -, rfl⟩ := (spans_one _).mp hstep
      rw [List.append_cons] at hrest
      obtain ⟨skipped, left, rfl, rfl, rfl⟩ :=
        (ih fun h => hb (List.mem_cons_of_mem d h)).mp hrest
      exact ⟨d :: skipped, left, rfl, rfl, by rw [List.append_cons a d skipped]⟩
    · rintro ⟨skipped, left, rfl, hlength, rfl⟩
      obtain ⟨d, skipped, rfl⟩ := List.exists_cons_of_length_eq_add_one hlength
      have hd : d ≠ '\n' := fun h => hb (h ▸ List.mem_cons_self)
      refine ⟨(a ++ [d]).length, (spans_one _).mpr ⟨d, _, rfl, contains_dot hd, rfl⟩, ?_⟩
      rw [List.cons_append, List.append_cons]
      refine (ih fun h => hb (List.mem_cons_of_mem d h)).mpr ⟨skipped, left, rfl, ?_, ?_⟩
      · exact Nat.succ_inj.mp hlength
      · rw [List.append_cons a d skipped]

theorem spans_anything (hb : '\n' ∉ b) :
    Spans (a ++ b).toArray (Token.anything.item caseFlags) a.length j ↔
      ∃ skipped rest, b = skipped ++ rest ∧ j = (a ++ skipped).length := by
  rw [Token.item, Spans]
  constructor
  · rintro ⟨more, -, htimes⟩
    obtain ⟨skipped, rest, hsplit, -, hj⟩ := (times_dot hb).mp htimes
    exact ⟨skipped, rest, hsplit, hj⟩
  · rintro ⟨skipped, rest, hsplit, hj⟩
    exact ⟨skipped.length, by simp,
      (times_dot hb).mpr ⟨skipped, rest, hsplit, (Nat.zero_add _).symm, hj⟩⟩

theorem spans_tokens (ts : List Token) (ps : List Pattern) (hb : '\n' ∉ b) :
    Spans (a ++ b).toArray (chain (ts.map (Token.item caseFlags) ++ ps)) a.length k ↔
      ∃ t rest, b = t ++ rest ∧ Fits ts t ∧
        Spans (a ++ b).toArray (chain ps) (a ++ t).length k := by
  -- What an item spans goes from `b` to the end of `a`; the text itself stays.
  induction ts generalizing a b with
  | nil =>
    constructor
    · intro h
      exact ⟨[], b, rfl, rfl, by rwa [List.append_nil]⟩
    · rintro ⟨t, rest, -, hfits, h⟩
      obtain rfl : t = [] := hfits
      rwa [List.append_nil] at h
  | cons token ts ih =>
    rw [List.map_cons, List.cons_append, chain_cons, Spans]
    cases token with
    | literal c =>
      constructor
      · rintro ⟨j, hitem, hchain⟩
        obtain ⟨d, b, rfl, hletter, rfl⟩ := (spans_literal c).mp hitem
        rw [List.append_cons] at hchain
        obtain ⟨t, rest, rfl, hfits, hps⟩ := (ih fun h => hb (List.mem_cons_of_mem d h)).mp hchain
        refine ⟨d :: t, rest, rfl, ⟨d, t, rfl, hletter, hfits⟩, ?_⟩
        rwa [List.append_cons, List.append_cons a d t]
      · rintro ⟨_, rest, rfl, ⟨d, t, rfl, hletter, hfits⟩, hps⟩
        refine ⟨(a ++ [d]).length, (spans_literal c).mpr ⟨d, t ++ rest, rfl, hletter, rfl⟩, ?_⟩
        rw [List.cons_append, List.append_cons] at hps ⊢
        rw [List.append_cons a d t] at hps
        exact (ih fun h => hb (List.mem_cons_of_mem d h)).mpr ⟨t, rest, rfl, hfits, hps⟩
    | anything =>
      constructor
      · rintro ⟨j, hitem, hchain⟩
        obtain ⟨skipped, b, rfl, rfl⟩ := (spans_anything hb).mp hitem
        rw [← List.append_assoc] at hchain
        obtain ⟨t, rest, rfl, hfits, hps⟩ :=
          (ih fun h => hb (List.mem_append_right skipped h)).mp hchain
        refine ⟨skipped ++ t, rest, by rw [List.append_assoc], ⟨skipped, t, rfl, hfits⟩, ?_⟩
        rwa [← List.append_assoc a skipped (t ++ rest), ← List.append_assoc a skipped t]
      · rintro ⟨_, rest, rfl, ⟨skipped, t, rfl, hfits⟩, hps⟩
        rw [List.append_assoc] at hb hps ⊢
        refine ⟨(a ++ skipped).length, (spans_anything hb).mpr ⟨skipped, t ++ rest, rfl, rfl⟩, ?_⟩
        rw [← List.append_assoc] at hps ⊢
        rw [← List.append_assoc a skipped t] at hps
        exact (ih fun h => hb (List.mem_append_right skipped h)).mpr ⟨t, rest, rfl, hfits, hps⟩

variable {cs : List Char} {text : Array Char} {ps : List Pattern} {i : Nat}

theorem spans_front : Spans text (chain (front caseFlags cs ++ ps)) i k ↔
    (cs.head? ≠ some '%' → i = 0) ∧ Spans text (chain ps) i k := by
  rw [front]
  split
  · rename_i hhead
    simp [hhead]
  · rename_i hhead
    rw [List.singleton_append, chain_cons, Spans]
    simp [Spans, Assertion.holds, caseFlags, hhead]

theorem spans_back : Spans text (chain (back caseFlags cs)) i k ↔
    (cs.getLast? ≠ some '%' → i = text.size) ∧ i = k := by
  rw [back]
  split
  · rename_i hlast
    simp [hlast, chain, sequence, Spans]
  · rename_i hlast
    rw [chain_cons, Spans]
    simp [Spans, Assertion.holds, caseFlags, hlast, chain, sequence, and_comm]

theorem isFoundIn_items {t : String} (ht : '\n' ∉ t.toList) :
    (chain (items caseFlags cs)).isFoundIn t = true ↔
      ∃ a u w, t.toList = a ++ (u ++ w) ∧ (cs.head? ≠ some '%' → a = []) ∧
        (cs.getLast? ≠ some '%' → w = []) ∧ Fits (tokens cs) u := by
  rw [isFoundIn_iff, items]
  constructor
  · rintro ⟨i, k, hi, hspans⟩
    obtain ⟨a, b, htext, rfl⟩ : ∃ a b, t.toList = a ++ b ∧ a.length = i :=
      ⟨t.toList.take i, t.toList.drop i, (List.take_append_drop i _).symm, List.length_take_of_le hi⟩
    rw [htext] at hspans ht
    rw [List.append_assoc, spans_front,
      spans_tokens _ _ fun h => ht (List.mem_append_right a h)] at hspans
    obtain ⟨hfront, u, w, rfl, hfits, hback⟩ := hspans
    obtain ⟨hback, -⟩ := spans_back.mp hback
    refine ⟨a, u, w, htext, fun hhead => List.eq_nil_of_length_eq_zero (hfront hhead),
      fun hlast => List.eq_nil_of_length_eq_zero ?_, hfits⟩
    have hsize := hback hlast
    rw [List.size_toArray, List.length_append, List.length_append, List.length_append] at hsize
    omega
  · rintro ⟨a, u, w, htext, hfront, hback, hfits⟩
    rw [htext] at ht ⊢
    refine ⟨a.length, (a ++ u).length, by simp, ?_⟩
    rw [List.append_assoc, spans_front, spans_tokens _ _ fun h => ht (List.mem_append_right a h)]
    refine ⟨fun hhead => by rw [hfront hhead]; rfl, u, w, rfl, hfits, spans_back.mpr ⟨?_, rfl⟩⟩
    intro hlast
    rw [hback hlast, List.append_nil, List.size_toArray]

theorem Fits.prepend {ts : List Token} {t : List Char} (h : Fits (.anything :: ts) t)
    (more : List Char) : Fits (.anything :: ts) (more ++ t) := by
  obtain ⟨skipped, rest, rfl, hrest⟩ := h
  exact ⟨more ++ skipped, rest, by simp, hrest⟩

theorem fits_of_part {a u w : List Char} (hescaped : ¬['\\', '%'] <:+ cs)
    (hfront : cs.head? ≠ some '%' → a = []) (hback : cs.getLast? ≠ some '%' → w = [])
    (h : Fits (tokens cs) u) : Fits (tokens cs) (a ++ (u ++ w)) := by
  have hbehind : Fits (tokens cs) (u ++ w) := by
    by_cases hlast : cs.getLast? = some '%'
    · obtain ⟨ts, hts⟩ := exists_tokens_of_getLast? hlast hescaped
      rw [hts] at h ⊢
      exact h.append w
    · rwa [hback hlast, List.append_nil]
  by_cases hhead : cs.head? = some '%'
  · obtain ⟨ts, hts⟩ := exists_tokens_of_head? hhead
    rw [hts] at hbehind ⊢
    exact hbehind.prepend a
  · rwa [hfront hhead]

/-- A LIKE pattern is always accepted as a search. Unless the pattern ends in an escaped percent sign, the
search finds exactly those texts of one line that are, as a whole, what the pattern describes. -/
theorem found_iff_matches (pattern text : String) (hescaped : ¬['\\', '%'] <:+ pattern.toList)
    (hline : '\n' ∉ text.toList) :
    ∃ source options p, regex (.string pattern) = .ok (.regex source options) ∧
      Filter.regex source options = .ok p ∧
      (p.isFoundIn text = true ↔ Matches pattern.toList text.toList) := by
  refine ⟨_, _, chain (items caseFlags pattern.toList), rfl, Filter.regex_like pattern, ?_⟩
  rw [isFoundIn_items hline, matches_iff_fits]
  constructor
  · rintro ⟨a, u, w, htext, hfront, hback, hfits⟩
    rw [htext]
    exact fits_of_part hescaped hfront hback hfits
  · intro hfits
    -- The whole text is a part of it that every tie allows.
    exact ⟨[], text.toList, [], by simp, fun _ => rfl, fun _ => rfl, hfits⟩

theorem found_iff_matches_escaped : ¬['\\', '%'] <:+ "A\\%_%".toList ∧ '\n' ∉ "a%_ off".toList ∧
    ∃ source options p, regex (.string "A\\%_%") = .ok (.regex source options) ∧
      Filter.regex source options = .ok p ∧ p.isFoundIn "a%_ off" = true := by
  have hescaped : ¬['\\', '%'] <:+ "A\\%_%".toList := by decide
  have hline : '\n' ∉ "a%_ off".toList := by decide
  have hletter : SameLetter 'A' 'a' := by decide +kernel
  have hmatches : Matches "A\\%_%".toList "a%_ off".toList :=
    .letter (by decide) (by decide) hletter <| .percent <|
      .letter (by decide) (by decide) rfl <| .anything [' ', 'o', 'f', 'f'] .done
  obtain ⟨source, options, p, hregex, hp, hfound⟩ := found_iff_matches _ _ hescaped hline
  exact ⟨hescaped, hline, source, options, p, hregex, hp, hfound.mpr hmatches⟩

end RelDoc.Pattern.Like
