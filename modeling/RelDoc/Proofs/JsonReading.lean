import RelDoc.Proofs.JsonTexts
import RelDoc.Wire.Nesting

namespace RelDoc.Wire

namespace Number

theorem le_ofDigitChars (n : ℕ) (cs : List Char) : n ≤ Nat.ofDigitChars 10 cs n := by
  induction cs generalizing n with
  | nil => exact le_rfl
  | cons c rest ih =>
    rw [Nat.ofDigitChars_cons]
    exact le_trans (by omega) (ih _)

theorem absorb_eq {n : ℕ} {cs : List Char} (h : Nat.ofDigitChars 10 cs n < UInt64.size) :
    absorb n cs = (Nat.ofDigitChars 10 cs n, []) := by
  induction cs generalizing n with
  | nil => rfl
  | cons c rest ih =>
    rw [Nat.ofDigitChars_cons] at h
    have hnext : 10 * n + digitValue c < UInt64.size := lt_of_le_of_lt (le_ofDigitChars _ rest) h
    rw [absorb, if_pos hnext]
    exact ih h

theorem head?_toDigits {n : ℕ} (h : n ≠ 0) : (Nat.toDigits 10 n).head? ≠ some '0' := by
  induction n using Nat.strong_induction_on with
  | _ n ih =>
    have hdigit : ∀ d < 10, d ≠ 0 → d.digitChar ≠ '0' := by decide
    by_cases hlt : n < 10
    · rw [Nat.toDigits_of_lt_base hlt]
      exact fun hzero => hdigit n hlt h (Option.some.inj hzero)
    · rw [Nat.toDigits_of_base_le (by decide) (Nat.le_of_not_lt hlt),
        List.head?_append_of_ne_nil _ Nat.toDigits_ne_nil]
      exact ih (n / 10) (by omega) (by omega)

theorem unsigned_toDigits (negative : Bool) {n : ℕ} (h : n < UInt64.size) :
    unsigned negative (Nat.toDigits 10 n) = some (whole negative n) := by
  have hdigits := Decimal.allDigits_toDigits n
  have hempty : (Nat.toDigits 10 n).isEmpty = false :=
    List.isEmpty_eq_false_iff.mpr Nat.toDigits_ne_nil
  have hzero : ((Nat.toDigits 10 n).head? == some '0' && (Nat.toDigits 10 n).length != 1) =
      false := by
    by_cases hn : n = 0
    · subst hn
      rfl
    · rw [Bool.and_eq_false_iff]
      exact Or.inl (beq_eq_false_iff_ne.mpr (head?_toDigits hn))
  have hvalue : Nat.ofDigitChars 10 (Nat.toDigits 10 n) 0 = n := Nat.ofDigitChars_ten_toDigits
  rw [unsigned]
  dsimp only
  rw [List.takeWhile_eq_self_iff.mpr hdigits, List.dropWhile_eq_nil_iff.mpr hdigits, hempty, hzero,
    absorb_eq (by rw [hvalue]; exact h), hvalue]
  rfl

theorem read?_digits {cs : List Char} (h : '-' ∉ cs) : read? cs = unsigned false cs := by
  rw [read?]
  rintro rest rfl
  exact h List.mem_cons_self

theorem read?_toString {n : ℤ} (hlow : Int64.minValue.toInt ≤ n) (hhigh : n < UInt64.size) :
    read? (toString n).toList = some (.integer n) := by
  have hmin : Int64.minValue.toInt = -9223372036854775808 := rfl
  have hsize : UInt64.size = 18446744073709551616 := rfl
  have hword : n.natAbs < UInt64.size := by omega
  rw [Json.toList_toString]
  split
  case isTrue hneg =>
    rw [List.singleton_append, read?, unsigned_toDigits true hword, whole, if_neg (by decide),
      if_neg (by omega)]
    exact congrArg (fun m => some (Json.integer m)) (by omega)
  case isFalse hnonneg =>
    have hminus : '-' ∉ Nat.toDigits 10 n.natAbs :=
      fun hmem => absurd (Decimal.allDigits_toDigits _ _ hmem) (by decide)
    rw [List.nil_append, read?_digits hminus, unsigned_toDigits false hword]
    exact congrArg (fun m => some (Json.integer m)) (by omega)

end Number

namespace Token

theorem pieces?_escape {letter c : Char} (hu : letter ≠ 'u') (h : shortEscape? letter = some c)
    (rest : List Char) : pieces? ('\\' :: letter :: rest) = (pieces? rest).map (.char c :: ·) := by
  rw [pieces?, h]
  · cases pieces? rest <;> rfl
  · exact fun a b c d more hletter => absurd hletter hu

theorem pieces?_unit {n : ℕ} (h : n < 32) (rest : List Char) :
    pieces? ('\\' :: 'u' :: (Text.Hex.encode 4 n ++ rest)) =
      (pieces? rest).map (.unit n :: ·) := by
  have hdecode : ∀ n < 32, Text.Hex.decode? (Text.Hex.encode 4 n) = some n := by decide
  have hread := hdecode n h
  obtain ⟨a, b, c, d, heq⟩ := List.length_eq_four.mp (Text.Hex.length_encode 4 n)
  rw [heq] at hread ⊢
  change (do
    let n ← Text.Hex.decode? [a, b, c, d]
    pure (Piece.unit n :: (← pieces? rest))) = _
  rw [hread]
  cases pieces? rest <;> rfl

theorem joined?_unit {n : ℕ} (h : n < 32) (ps : List Piece) :
    joined? (.unit n :: ps) = (joined? ps).map (Char.ofNat n :: ·) := by
  have hcode : ∀ n < 32, Pattern.codePoint? n = some (Char.ofNat n) := by decide
  have hhigh : ∀ n < 32, isHighUnit n = false := by decide
  have hchar : (do
      let c ← Pattern.codePoint? n
      pure (c :: (← joined? ps))) = (joined? ps).map (Char.ofNat n :: ·) := by
    rw [hcode n h]
    cases joined? ps <;> rfl
  rcases ps with _ | ⟨c | l, rest⟩
  · exact hchar
  · exact hchar
  · rw [joined?, hhigh n h]
    exact hchar

theorem pieces?_escapedChar (c : Char) : ∃ p : Piece,
    (∀ rest, pieces? (escapedChar c ++ rest) = (pieces? rest).map (p :: ·)) ∧
      ∀ ps, joined? (p :: ps) = (joined? ps).map (c :: ·) := by
  by_cases hletter : c = '"' ∨ c = '\\' ∨ c = '\x08' ∨ c = '\x0c' ∨ c = '\n' ∨ c = '\r' ∨ c = '\t'
  · refine ⟨.char c, fun rest => ?_, fun ps => rfl⟩
    rcases hletter with rfl | rfl | rfl | rfl | rfl | rfl | rfl
    all_goals exact pieces?_escape (by decide) rfl rest
  · simp only [not_or] at hletter
    obtain ⟨hquote, hbackslash, h8, hc, hn, hr, ht⟩ := hletter
    rw [escapedChar, if_neg hquote, if_neg hbackslash, if_neg h8, if_neg hc, if_neg hn, if_neg hr,
      if_neg ht]
    by_cases hcontrol : c.toNat < 0x20
    · refine ⟨.unit c.toNat, fun rest => ?_, fun ps => ?_⟩
      · rw [if_pos hcontrol]
        exact pieces?_unit hcontrol rest
      · rw [joined?_unit hcontrol, Char.ofNat_toNat]
    · refine ⟨.char c, fun rest => ?_, fun ps => rfl⟩
      rw [if_neg hcontrol, List.singleton_append, pieces?, if_neg (by simp [hbackslash, hcontrol])]
      all_goals simp [hbackslash]

theorem ofQuoted?_flatMap (cs : List Char) :
    ofQuoted? (cs.flatMap escapedChar) = some (.string (some (String.ofList cs))) := by
  have hread : ∃ ps, pieces? (cs.flatMap escapedChar) = some ps ∧ joined? ps = some cs := by
    induction cs with
    | nil => exact ⟨[], rfl, rfl⟩
    | cons c rest ih =>
      obtain ⟨p, hpieces, hjoined⟩ := pieces?_escapedChar c
      obtain ⟨ps, hps, hrest⟩ := ih
      exact ⟨p :: ps, by rw [List.flatMap_cons, hpieces, hps]; rfl, by rw [hjoined, hrest]; rfl⟩
  obtain ⟨ps, hpieces, hjoined⟩ := hread
  rw [ofQuoted?, hpieces, Option.map_some, hjoined]
  rfl

theorem tokens?_of_step {p q : Place} {c : Char} {ts : List Token}
    (h : step p c = some (ts, q)) (rest : List Char) :
    tokens? p (c :: rest) = (tokens? q rest).map (ts ++ ·) := by
  have hstep : tokens? p (c :: rest) =
      (step p c).bind fun r => (tokens? r.2 rest).bind fun more => some (r.1 ++ more) := by
    cases p <;> rfl
  rw [hstep, h, Option.bind_some]
  exact Option.map_eq_bind.symm

theorem tokens?_silent {p q : Place} {c : Char} (h : step p c = some ([], q))
    (rest : List Char) : tokens? p (c :: rest) = tokens? q rest := by
  rw [tokens?_of_step h]
  cases tokens? q rest <;> rfl

theorem tokens?_inside {cs : List Char} (h : ∀ c ∈ cs, c ≠ '"' ∧ c ≠ '\\') (before rest : List Char) :
    tokens? (.quoted before) (cs ++ rest) = tokens? (.quoted (cs.reverse ++ before)) rest := by
  induction cs generalizing before with
  | nil => rfl
  | cons c cs ih =>
    obtain ⟨⟨hquote, hbackslash⟩, hcs⟩ := List.forall_mem_cons.mp h
    have hstep : step (.quoted before) c = some ([], .quoted (c :: before)) := by
      rw [step, if_neg hquote, if_neg hbackslash]
    rw [List.cons_append, tokens?_silent hstep, ih hcs, List.reverse_cons, List.append_assoc,
      List.singleton_append]

theorem tokens?_escapedChar (c : Char) (before rest : List Char) :
    tokens? (.quoted before) (escapedChar c ++ rest) =
      tokens? (.quoted ((escapedChar c).reverse ++ before)) rest := by
  have hescape (letter : Char) (rest : List Char) :
      tokens? (.quoted before) ('\\' :: letter :: rest) =
        tokens? (.quoted (letter :: '\\' :: before)) rest := by
    rw [tokens?_silent (q := .escaped ('\\' :: before)) rfl, tokens?_silent rfl]
  rcases escapedChar_cases c with ⟨hquote, hbackslash, heq⟩ | ⟨letter, -, -, heq⟩ | ⟨-, heq⟩
  · rw [heq]
    exact tokens?_inside (by simp [hquote, hbackslash]) before rest
  · rw [heq]
    exact hescape letter rest
  · rw [heq, List.cons_append, List.cons_append, hescape,
      tokens?_inside (fun c hc => mem_encode hc)]
    simp

theorem tokens?_flatMap (cs before rest : List Char) :
    tokens? (.quoted before) (cs.flatMap escapedChar ++ rest) =
      tokens? (.quoted ((cs.flatMap escapedChar).reverse ++ before)) rest := by
  induction cs generalizing before with
  | nil => rfl
  | cons c cs ih =>
    rw [List.flatMap_cons, List.append_assoc, tokens?_escapedChar, ih, List.reverse_append,
      List.append_assoc]

theorem tokens?_stringText (s : String) (rest : List Char) :
    tokens? .between (stringText s ++ rest) =
      (tokens? .between rest).map (.string (some s) :: ·) := by
  have hclose : step (.quoted ((s.toList.flatMap escapedChar).reverse ++ [])) '"' =
      some ([.string (some s)], .between) := by
    rw [step, if_pos rfl, List.append_nil, List.reverse_reverse, ofQuoted?_flatMap,
      String.ofList_toList]
    rfl
  rw [stringText, List.append_assoc, List.append_assoc, List.singleton_append,
    tokens?_silent (q := .quoted []) rfl, tokens?_flatMap, List.singleton_append,
    tokens?_of_step hclose]
  rfl

theorem tokens?_mark {c : Char} {t : Token} (h : begin c = ([t], .between)) (rest : List Char) :
    tokens? .between (c :: rest) = (tokens? .between rest).map (t :: ·) := by
  have hstep : step .between c = some ([t], .between) := congrArg some h
  exact tokens?_of_step hstep rest

def EndsWord (rest : List Char) : Prop := ∀ c ∈ rest.head?, isWordEnd c = true

theorem endsWord_cons {c : Char} (h : isWordEnd c = true) (rest : List Char) :
    EndsWord (c :: rest) := by
  intro d hd
  rwa [← Option.some.inj hd]

theorem isWordEnd_of_isDigit {c : Char} (h : c.isDigit = true) : isWordEnd c = false := by
  have hdigits : ∀ n < 58, 48 ≤ n → isWordEnd (Char.ofNat n) = false := by decide
  obtain ⟨hlow, hhigh⟩ := Char.isDigit_iff_toNat.mp h
  have hchar := hdigits c.toNat (Nat.lt_succ_of_le hhigh) hlow
  rwa [Char.ofNat_toNat] at hchar

theorem isWordEnd_of_all {cs : List Char} (h : cs.all (fun c => !isWordEnd c) = true) :
    ∀ c ∈ cs, isWordEnd c = false := by simpa using h

theorem tokens?_word (before : List Char) {cs rest : List Char} {t : Token}
    (hcs : ∀ c ∈ cs, isWordEnd c = false) (hword : ofWord? (before.reverse ++ cs) = some t)
    (hrest : EndsWord rest) :
    tokens? (.word before) (cs ++ rest) = (tokens? .between rest).map (t :: ·) := by
  induction cs generalizing before with
  | nil =>
    rw [List.append_nil] at hword
    rcases rest with _ | ⟨c, rest⟩
    · change (ofWord? before.reverse).map (fun t => [t]) = _
      rw [hword]
      rfl
    · have hend : isWordEnd c = true := hrest c rfl
      have hstep : step (.word before) c = some (t :: (begin c).1, (begin c).2) := by
        rw [step, if_pos hend, hword]
        rfl
      have hbetween : step .between c = some ((begin c).1, (begin c).2) := rfl
      rw [List.nil_append, tokens?_of_step hstep, tokens?_of_step hbetween, Option.map_map]
      rfl
  | cons c cs ih =>
    obtain ⟨hc, hcs⟩ := List.forall_mem_cons.mp hcs
    have hstep : step (.word before) c = some ([], .word (c :: before)) := by
      rw [step, if_neg (by rw [hc]; decide)]
    rw [List.cons_append, tokens?_silent hstep]
    exact ih (c :: before) hcs (by simpa using hword)

theorem tokens?_scalar {cs : List Char} {j : Json} (hne : cs ≠ [])
    (hcs : ∀ c ∈ cs, isWordEnd c = false) (hword : ofWord? cs = some (.scalar j))
    {rest : List Char} (hrest : EndsWord rest) :
    tokens? .between (cs ++ rest) = (tokens? .between rest).map (.scalar j :: ·) := by
  rcases cs with _ | ⟨c, cs⟩
  · exact absurd rfl hne
  · obtain ⟨hc, hcs⟩ := List.forall_mem_cons.mp hcs
    have hbegin : step .between c = some ([], .word [c]) := by
      simp only [isWordEnd, Bool.or_eq_false_iff, beq_eq_false_iff_ne, Option.isSome_eq_false_iff,
        Option.isNone_iff_eq_none] at hc
      obtain ⟨⟨hblank, hquote⟩, hmark⟩ := hc
      rw [step, begin, hblank, if_neg (by decide), if_neg hquote, hmark]
    rw [List.cons_append, tokens?_silent hbegin]
    exact tokens?_word [c] hcs hword hrest

end Token

namespace Json

mutual

/-- Is a document built without doubles, from integers that fit 64 bits, signed or unsigned? -/
def isExact : Json → Bool
  | .null | .boolean _ | .string _ => true
  | .integer n => Int64.minValue.toInt ≤ n && n < UInt64.size
  | .array items => allExact items
  | .object fields => fieldsExact fields
  | .double _ | .unusable => false
termination_by structural j => j

def allExact : List Json → Bool
  | [] => true
  | j :: rest => isExact j && allExact rest
termination_by structural items => items

def fieldsExact : List (String × Json) → Bool
  | [] => true
  | (_, j) :: rest => isExact j && fieldsExact rest
termination_by structural fields => fields

end

mutual

def depth : Json → ℕ
  | .array items => itemsDepth items + 1
  | .object fields => fieldsDepth fields + 1
  | _ => 0
termination_by structural j => j

def itemsDepth : List Json → ℕ
  | [] => 0
  | j :: rest => max (depth j) (itemsDepth rest)
termination_by structural items => items

def fieldsDepth : List (String × Json) → ℕ
  | [] => 0
  | (_, j) :: rest => max (depth j) (fieldsDepth rest)
termination_by structural fields => fields

end

mutual

def tokens : Json → List Token
  | .string s => [.string (some s)]
  | .array [] => [.openArray, .closeArray]
  | .array (j :: rest) => .openArray :: (tokens j ++ tokensBehind rest)
  | .object [] => [.openObject, .closeObject]
  | .object ((k, j) :: rest) =>
    .openObject :: .string (some k) :: .colon :: (tokens j ++ tokensBehindField rest)
  | j => [.scalar j]
termination_by structural j => j

def tokensBehind : List Json → List Token
  | [] => [.closeArray]
  | j :: rest => .comma :: (tokens j ++ tokensBehind rest)
termination_by structural items => items

def tokensBehindField : List (String × Json) → List Token
  | [] => [.closeObject]
  | (k, j) :: rest =>
    .comma :: .string (some k) :: .colon :: (tokens j ++ tokensBehindField rest)
termination_by structural fields => fields

end

theorem mem_toString {n : ℤ} {c : Char} (h : c ∈ (toString n).toList) :
    c = '-' ∨ c.isDigit = true := by
  rw [toList_toString, List.mem_append] at h
  rcases h with h | h
  · split at h
    · exact Or.inl (List.mem_singleton.mp h)
    · cases h
  · exact Or.inr (Decimal.allDigits_toDigits _ _ h)

theorem isExact_integer {n : ℤ} :
    (integer n).isExact = true ↔ Int64.minValue.toInt ≤ n ∧ n < UInt64.size := by
  rw [isExact, Bool.and_eq_true, decide_eq_true_eq, decide_eq_true_eq]

theorem ofWord?_toString {n : ℤ} (h : (integer n).isExact = true) :
    Token.ofWord? (toString n).toList = some (.scalar (.integer n)) := by
  obtain ⟨hlow, hhigh⟩ := isExact_integer.mp h
  -- The words of JSON have letters, which no integer has.
  have hletter {cs : List Char} {c : Char} (hc : c ∈ cs) (hne : ¬(c = '-' ∨ c.isDigit = true)) :
      (toString n).toList ≠ cs := by
    rintro rfl
    exact hne (mem_toString hc)
  rw [Token.ofWord?, if_neg (hletter (c := 'n') (by decide) (by decide)),
    if_neg (hletter (c := 't') (by decide) (by decide)),
    if_neg (hletter (c := 'f') (by decide) (by decide)), Number.read?_toString hlow hhigh]
  rfl

section Words

variable {rest : List Char} (hrest : Token.EndsWord rest)
include hrest

theorem tokens?_null : Token.tokens? .between (null.text ++ rest) =
    (Token.tokens? .between rest).map (.scalar .null :: ·) := by
  have hword : Token.ofWord? null.text = some (.scalar .null) := by
    rw [text, Token.ofWord?, if_pos rfl]
  exact Token.tokens?_scalar (text_ne_nil _) (Token.isWordEnd_of_all rfl) hword hrest

theorem tokens?_boolean (b : Bool) : Token.tokens? .between ((boolean b).text ++ rest) =
    (Token.tokens? .between rest).map (.scalar (.boolean b) :: ·) := by
  have hword : Token.ofWord? (boolean b).text = some (.scalar (.boolean b)) := by
    cases b
    · rw [text, if_neg (by decide), Token.ofWord?, if_neg (by decide), if_neg (by decide),
        if_pos rfl]
    · rw [text, if_pos rfl, Token.ofWord?, if_neg (by decide), if_pos rfl]
  have hinside : ∀ c ∈ (boolean b).text, Token.isWordEnd c = false := by
    cases b
    · exact Token.isWordEnd_of_all rfl
    · exact Token.isWordEnd_of_all rfl
  exact Token.tokens?_scalar (text_ne_nil _) hinside hword hrest

theorem tokens?_integer {n : ℤ} (h : (integer n).isExact = true) :
    Token.tokens? .between ((integer n).text ++ rest) =
      (Token.tokens? .between rest).map (.scalar (.integer n) :: ·) := by
  have hinside : ∀ c ∈ (integer n).text, Token.isWordEnd c = false := by
    intro c hc
    rcases mem_toString hc with rfl | hdigit
    · rfl
    · exact Token.isWordEnd_of_isDigit hdigit
  exact Token.tokens?_scalar (text_ne_nil _) hinside (ofWord?_toString h) hrest

end Words

theorem endsWord_itemsTail (items : List Json) (rest : List Char) :
    Token.EndsWord (itemsTail items ++ ']' :: rest) := by
  cases items <;> exact Token.endsWord_cons rfl _

theorem endsWord_fieldsTail (fields : List (String × Json)) (rest : List Char) :
    Token.EndsWord (fieldsTail fields ++ '\x7d' :: rest) := by
  cases fields <;> exact Token.endsWord_cons rfl _

theorem text_array_cons (j : Json) (rest : List Json) (more : List Char) :
    (array (j :: rest)).text ++ more = '[' :: (j.text ++ (itemsTail rest ++ ']' :: more)) := by
  simp [text, itemsText_cons]

theorem text_object_cons (k : String) (j : Json) (rest : List (String × Json))
    (more : List Char) : (object ((k, j) :: rest)).text ++ more =
      '\x7b' :: (stringText k ++ ':' :: (j.text ++ (fieldsTail rest ++ '\x7d' :: more))) := by
  simp [text, fieldsText_cons]

theorem fieldsTail_cons (k : String) (j : Json) (rest : List (String × Json)) :
    fieldsTail ((k, j) :: rest) = ',' :: (stringText k ++ ':' :: (j.text ++ fieldsTail rest)) := by
  rw [fieldsTail, fieldsText_cons]

theorem itemsTail_cons (j : Json) (rest : List Json) :
    itemsTail (j :: rest) = ',' :: (j.text ++ itemsTail rest) := by
  rw [itemsTail, itemsText_cons]

mutual

theorem tokens?_text : ∀ (j : Json) (rest : List Char), j.isExact = true → Token.EndsWord rest →
    Token.tokens? .between (j.text ++ rest) = (Token.tokens? .between rest).map (j.tokens ++ ·)
  | .null, rest, _, hrest => tokens?_null hrest
  | .boolean b, rest, _, hrest => tokens?_boolean hrest b
  | .integer n, rest, h, hrest => tokens?_integer hrest h
  | .string s, rest, _, _ => Token.tokens?_stringText s rest
  | .array [], rest, _, _ => by
    change Token.tokens? .between ('[' :: ']' :: rest) = _
    rw [Token.tokens?_mark (t := .openArray) rfl, Token.tokens?_mark (t := .closeArray) rfl,
      Option.map_map]
    rfl
  | .array (j :: items), rest, h, _ => by
    rw [isExact, allExact, Bool.and_eq_true] at h
    rw [text_array_cons, Token.tokens?_mark (t := .openArray) rfl,
      tokens?_text j _ h.1 (endsWord_itemsTail items rest), tokens?_itemsTail items rest h.2,
      Option.map_map, Option.map_map]
    simp [tokens, Function.comp_def]
  | .object [], rest, _, _ => by
    change Token.tokens? .between ('\x7b' :: '\x7d' :: rest) = _
    rw [Token.tokens?_mark (t := .openObject) rfl, Token.tokens?_mark (t := .closeObject) rfl,
      Option.map_map]
    rfl
  | .object ((k, j) :: fields), rest, h, _ => by
    rw [isExact, fieldsExact, Bool.and_eq_true] at h
    rw [text_object_cons, Token.tokens?_mark (t := .openObject) rfl, Token.tokens?_stringText,
      Token.tokens?_mark (t := .colon) rfl, tokens?_text j _ h.1 (endsWord_fieldsTail fields rest),
      tokens?_fieldsTail fields rest h.2]
    simp [tokens, Function.comp_def]

theorem tokens?_itemsTail : ∀ (items : List Json) (rest : List Char), allExact items = true →
    Token.tokens? .between (itemsTail items ++ ']' :: rest) =
      (Token.tokens? .between rest).map (tokensBehind items ++ ·)
  | [], rest, _ => Token.tokens?_mark rfl rest
  | j :: items, rest, h => by
    rw [allExact, Bool.and_eq_true] at h
    rw [itemsTail_cons, List.cons_append, List.append_assoc, Token.tokens?_mark (t := .comma) rfl,
      tokens?_text j _ h.1 (endsWord_itemsTail items rest), tokens?_itemsTail items rest h.2]
    simp [tokensBehind, Function.comp_def]

theorem tokens?_fieldsTail : ∀ (fields : List (String × Json)) (rest : List Char),
    fieldsExact fields = true → Token.tokens? .between (fieldsTail fields ++ '\x7d' :: rest) =
      (Token.tokens? .between rest).map (tokensBehindField fields ++ ·)
  | [], rest, _ => Token.tokens?_mark rfl rest
  | (k, j) :: fields, rest, h => by
    rw [fieldsExact, Bool.and_eq_true] at h
    rw [fieldsTail_cons]
    simp only [List.cons_append, List.append_assoc]
    rw [Token.tokens?_mark (t := .comma) rfl, Token.tokens?_stringText,
      Token.tokens?_mark (t := .colon) rfl, tokens?_text j _ h.1 (endsWord_fieldsTail fields rest),
      tokens?_fieldsTail fields rest h.2]
    simp [tokensBehindField, Function.comp_def]

end

def firstToken : Json → Token
  | .string s => .string (some s)
  | .array _ => .openArray
  | .object _ => .openObject
  | j => .scalar j

theorem tokens_eq_cons (j : Json) : ∃ rest, j.tokens = j.firstToken :: rest := by
  rcases j with _ | b | n | x | s | (_ | ⟨item, items⟩) | (_ | ⟨⟨key, item⟩, fields⟩) | _
  all_goals exact ⟨_, rfl⟩

end Json

namespace Expecting

theorem close_eq (j : Json) {stack : List Frame} (h : stack.length < maxDepth) :
    close j stack = accept j stack := by
  rw [close, if_pos h]

def known (fields : List (String × Json)) : List (Option String × Json) :=
  (fields.map fun field => (some field.1, field.2)).reverse

theorem known_concat (fields : List (String × Json)) (k : String) (j : Json) :
    known (fields ++ [(k, j)]) = (some k, j) :: known fields := by
  simp [known]

theorem object_known (fields : List (String × Json)) : object (known fields) = .object fields := by
  have hread : (fields.map fun field => (some field.1, field.2)).mapM
      (fun f => f.1.map (·, f.2)) = some fields := by
    induction fields with
    | nil => rfl
    | cons field rest ih =>
      rw [List.map_cons, List.mapM_cons, ih]
      rfl
  rw [object, known, List.reverse_reverse, hread]

theorem foldlM_firstItem (j : Json) (stack : List Frame) (more : List Token) :
    (j.tokens ++ more).foldlM step (.firstItem stack) =
      (j.tokens ++ more).foldlM step (.value (.items [] :: stack)) := by
  obtain ⟨rest, heq⟩ := j.tokens_eq_cons
  have hstep : step (.firstItem stack) j.firstToken =
      step (.value (.items [] :: stack)) j.firstToken := by
    cases j <;> rfl
  rw [heq, List.cons_append, List.foldlM_cons, List.foldlM_cons, hstep]

mutual

theorem foldlM_tokens : ∀ (j : Json) (stack : List Frame) (more : List Token),
    j.depth + stack.length ≤ maxDepth →
    (j.tokens ++ more).foldlM step (.value stack) = more.foldlM step (accept j stack)
  | .null, _, _, _ | .boolean _, _, _, _ | .integer _, _, _, _ | .double _, _, _, _
  | .string _, _, _, _ | .unusable, _, _, _ => rfl
  | .array [], stack, more, h => by
    rw [Json.depth] at h
    rw [← close_eq _ (by omega)]
    rfl
  | .array (j :: items), stack, more, h => by
    rw [Json.depth, Json.itemsDepth] at h
    rw [Json.tokens, List.cons_append, List.append_assoc, List.foldlM_cons]
    change (j.tokens ++ (Json.tokensBehind items ++ more)).foldlM step (.firstItem stack) = _
    -- The items are one level less deep, and there is one more open container around them.
    rw [foldlM_firstItem, foldlM_tokens j _ _ (by rw [List.length_cons]; omega)]
    exact foldlM_tokensBehind items [j] stack more (by omega)
  | .object [], stack, more, h => by
    rw [Json.depth] at h
    rw [← close_eq _ (by omega)]
    rfl
  | .object ((k, j) :: fields), stack, more, h => by
    rw [Json.depth, Json.fieldsDepth] at h
    rw [Json.tokens, List.cons_append, List.cons_append, List.cons_append, List.append_assoc]
    change (j.tokens ++ (Json.tokensBehindField fields ++ more)).foldlM step
      (.value (.fields [] (some k) :: stack)) = _
    rw [foldlM_tokens j _ _ (by rw [List.length_cons]; omega)]
    exact foldlM_tokensBehindField fields [(k, j)] stack more (by omega)

theorem foldlM_tokensBehind : ∀ (items before : List Json) (stack : List Frame)
    (more : List Token), Json.itemsDepth items + stack.length < maxDepth →
    (Json.tokensBehind items ++ more).foldlM step (.nextItem before.reverse stack) =
      more.foldlM step (accept (.array (before ++ items)) stack)
  | [], before, stack, more, h => by
    change more.foldlM step (close (.array before.reverse.reverse) stack) = _
    rw [close_eq _ (by omega), List.reverse_reverse, List.append_nil]
  | j :: items, before, stack, more, h => by
    rw [Json.itemsDepth] at h
    rw [Json.tokensBehind, List.cons_append, List.append_assoc]
    change (j.tokens ++ (Json.tokensBehind items ++ more)).foldlM step
      (.value (.items before.reverse :: stack)) = _
    rw [foldlM_tokens j _ _ (by rw [List.length_cons]; omega), List.append_cons]
    have hbehind := foldlM_tokensBehind items (before ++ [j]) stack more (by omega)
    rwa [List.reverse_concat] at hbehind

theorem foldlM_tokensBehindField : ∀ (fields before : List (String × Json)) (stack : List Frame)
    (more : List Token), Json.fieldsDepth fields + stack.length < maxDepth →
    (Json.tokensBehindField fields ++ more).foldlM step (.nextField (known before) stack) =
      more.foldlM step (accept (.object (before ++ fields)) stack)
  | [], before, stack, more, h => by
    rw [← close_eq _ (by omega), List.append_nil, ← object_known]
    rfl
  | (k, j) :: fields, before, stack, more, h => by
    rw [Json.fieldsDepth] at h
    rw [Json.tokensBehindField, List.cons_append, List.cons_append, List.cons_append,
      List.append_assoc]
    change (j.tokens ++ (Json.tokensBehindField fields ++ more)).foldlM step
      (.value (.fields (known before) (some k) :: stack)) = _
    rw [foldlM_tokens j _ _ (by rw [List.length_cons]; omega), List.append_cons]
    have hbehind := foldlM_tokensBehindField fields (before ++ [(k, j)]) stack more (by omega)
    rwa [known_concat] at hbehind

end

end Expecting

namespace Json

theorem tokens?_whole {j : Json} (h : j.isExact = true) :
    Token.tokens? .between j.text = some j.tokens := by
  have hread := tokens?_text j [] h (fun c hc => by cases hc)
  rw [List.append_nil] at hread
  rw [hread]
  exact congrArg some (List.append_nil _)

theorem parse?_text {j : Json} (h : j.isExact = true) (hdepth : j.depth ≤ maxDepth) :
    parse? j.text = some j := by
  have hrun := Expecting.foldlM_tokens j [] [] (by rw [List.length_nil]; omega)
  rw [List.append_nil] at hrun
  rw [parse?, tokens?_whole h, Option.bind_some, ofTokens?, hrun]
  rfl

theorem firstToken_eq_of_text {j k : Json} (hj : j.isExact = true) (hk : k.isExact = true)
    (h : j.text = k.text) : j.firstToken = k.firstToken := by
  have heq : j.tokens = k.tokens := by
    rw [← Option.some_inj, ← tokens?_whole hj, ← tokens?_whole hk, h]
  obtain ⟨rest, hrest⟩ := j.tokens_eq_cons
  obtain ⟨more, hmore⟩ := k.tokens_eq_cons
  rw [hrest, hmore] at heq
  exact (List.cons.inj heq).1

mutual

theorem eq_of_text : ∀ j k : Json, j.isExact = true → k.isExact = true → j.text = k.text → j = k
  | .null, k, hj, hk, h => by
    have htoken := firstToken_eq_of_text hj hk h
    cases k <;> simp [firstToken] at htoken
    case null => rfl
  | .boolean b, k, hj, hk, h => by
    have htoken := firstToken_eq_of_text hj hk h
    cases k <;> simp [firstToken] at htoken
    case boolean => rw [htoken]
  | .integer n, k, hj, hk, h => by
    have htoken := firstToken_eq_of_text hj hk h
    cases k <;> simp [firstToken] at htoken
    case integer => rw [htoken]
  | .string s, k, hj, hk, h => by
    have htoken := firstToken_eq_of_text hj hk h
    cases k <;> simp [firstToken] at htoken
    case string => rw [htoken]
  | .array items, k, hj, hk, h => by
    have htoken := firstToken_eq_of_text hj hk h
    cases k <;> simp [firstToken] at htoken
    case array more => rw [items_eq_of_text items more hj hk (text_array_inj h)]
  | .object fields, k, hj, hk, h => by
    have htoken := firstToken_eq_of_text hj hk h
    cases k <;> simp [firstToken] at htoken
    case object more => rw [fields_eq_of_text fields more hj hk (text_object_inj h)]
  | .double _, _, hj, _, _ | .unusable, _, hj, _, _ => by cases hj

theorem items_eq_of_text : ∀ js ks : List Json, allExact js = true → allExact ks = true →
    js.map text = ks.map text → js = ks
  | [], [], _, _, _ => rfl
  | j :: js, k :: ks, hj, hk, h => by
    rw [allExact, Bool.and_eq_true] at hj hk
    obtain ⟨htext, hrest⟩ := List.cons.inj h
    rw [eq_of_text j k hj.1 hk.1 htext, items_eq_of_text js ks hj.2 hk.2 hrest]
  | [], _ :: _, _, _, h => by cases h
  | _ :: _, [], _, _, h => by cases h

theorem fields_eq_of_text : ∀ fs gs : List (String × Json), fieldsExact fs = true →
    fieldsExact gs = true → fs.map fieldText = gs.map fieldText → fs = gs
  | [], [], _, _, _ => rfl
  | (key, j) :: fs, (key', k) :: gs, hf, hg, h => by
    rw [fieldsExact, Bool.and_eq_true] at hf hg
    obtain ⟨hfield, hrest⟩ := List.cons.inj h
    obtain ⟨rfl, htext⟩ := Prod.mk.inj hfield
    rw [eq_of_text j k hf.1 hg.1 htext, fields_eq_of_text fs gs hf.2 hg.2 hrest]
  | [], _ :: _, _, _, h => by cases h
  | _ :: _, [], _, _, h => by cases h

end

end Json

end RelDoc.Wire
