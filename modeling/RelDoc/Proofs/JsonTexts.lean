import RelDoc.Proofs.ShortestDecimals
import RelDoc.Wire.Record

/-!
Texts of JSON documents inside longer texts. A text is read up to the first comma, colon or closing
bracket that stands outside all brackets and quotes. The text of a document has none, so the texts of
two arrays agree only if those of their items do.
-/

namespace RelDoc.Wire

inductive Position where
  | plain
  | quoted
  | escaped

structure Reader where
  depth : Nat
  position : Position

namespace Reader

def isOpening (c : Char) : Bool := c = '[' || c = '\x7b'

def isClosing (c : Char) : Bool := c = ']' || c = '\x7d'

def isSeparator (c : Char) : Bool := c = ',' || c = ':'

def past (r : Reader) (c : Char) : Option Reader :=
  match r.position with
  | .escaped => some { r with position := .quoted }
  | .quoted =>
    if c = '"' then some { r with position := .plain }
    else if c = '\\' then some { r with position := .escaped }
    else some r
  | .plain =>
    if c = '"' then some { r with position := .quoted }
    else if isOpening c then some { r with depth := r.depth + 1 }
    else if isClosing c then
      if r.depth = 0 then none else some { r with depth := r.depth - 1 }
    else if isSeparator c then if r.depth = 0 then none else some r
    else some r

def pastAll : Reader → List Char → Option Reader
  | r, [] => some r
  | r, c :: rest => (r.past c).bind fun r => pastAll r rest

def upTo : Reader → List Char → List Char
  | _, [] => []
  | r, c :: rest =>
    match r.past c with
    | none => []
    | some r => c :: upTo r rest

theorem pastAll_append (r : Reader) (t u : List Char) :
    r.pastAll (t ++ u) = (r.pastAll t).bind fun r => r.pastAll u := by
  induction t generalizing r with
  | nil => rfl
  | cons c rest ih =>
    rw [List.cons_append, pastAll, pastAll]
    rcases r.past c with _ | r
    · rfl
    · exact ih r

theorem pastAll_append_some {r s : Reader} {t : List Char} (h : r.pastAll t = some s)
    (u : List Char) : r.pastAll (t ++ u) = s.pastAll u := by
  rw [pastAll_append, h]
  rfl

theorem upTo_append {r s : Reader} {t : List Char} (h : r.pastAll t = some s) (u : List Char) :
    r.upTo (t ++ u) = t ++ s.upTo u := by
  induction t generalizing r with
  | nil =>
    obtain rfl := Option.some.inj h
    rfl
  | cons c rest ih =>
    rw [pastAll] at h
    rw [List.cons_append, upTo]
    rcases hc : r.past c with _ | next
    · rw [hc] at h
      cases h
    · rw [hc] at h
      exact congrArg (c :: ·) (ih h)

def start : Reader := ⟨0, .plain⟩

end Reader

def Closed (t : List Char) : Prop :=
  ∀ depth, Reader.pastAll ⟨depth, .plain⟩ t = some ⟨depth, .plain⟩

def ClosedInside (t : List Char) : Prop :=
  ∀ depth, Reader.pastAll ⟨depth + 1, .plain⟩ t = some ⟨depth + 1, .plain⟩

def Stops (t : List Char) : Prop := Reader.start.upTo t = []

theorem stops_nil : Stops [] := rfl

theorem stops_cons {c : Char} (hc : c = ',' ∨ c = ':' ∨ c = ']' ∨ c = '\x7d') (rest : List Char) :
    Stops (c :: rest) := by
  rcases hc with rfl | rfl | rfl | rfl <;> rfl

theorem ClosedInside.append {t u : List Char} (ht : ClosedInside t) (hu : ClosedInside u) :
    ClosedInside (t ++ u) := by
  intro depth
  rw [Reader.pastAll_append_some (ht depth)]
  exact hu depth

theorem Closed.inside {t : List Char} (h : Closed t) : ClosedInside t := fun depth => h (depth + 1)

theorem closedInside_nil : ClosedInside [] := fun _ => rfl

theorem closedInside_separator {c : Char} (hc : c = ',' ∨ c = ':') : ClosedInside [c] := by
  rcases hc with rfl | rfl
  · exact fun _ => rfl
  · exact fun _ => rfl

theorem closed_array {t : List Char} (h : ClosedInside t) : Closed (['['] ++ t ++ [']']) := by
  intro depth
  rw [List.append_assoc, List.singleton_append]
  change Reader.pastAll ⟨depth + 1, .plain⟩ (t ++ [']']) = _
  rw [Reader.pastAll_append_some (h depth)]
  rfl

theorem closed_object {t : List Char} (h : ClosedInside t) :
    Closed (['\x7b'] ++ t ++ ['\x7d']) := by
  intro depth
  rw [List.append_assoc, List.singleton_append]
  change Reader.pastAll ⟨depth + 1, .plain⟩ (t ++ ['\x7d']) = _
  rw [Reader.pastAll_append_some (h depth)]
  rfl

theorem Closed.append_inj {t u x y : List Char} (ht : Closed t) (hu : Closed u) (hx : Stops x)
    (hy : Stops y) (h : t ++ x = u ++ y) : t = u ∧ x = y := by
  have hread {t x : List Char} (ht : Closed t) (hx : Stops x) : Reader.start.upTo (t ++ x) = t := by
    have happend : Reader.start.upTo (t ++ x) = t ++ Reader.start.upTo x :=
      Reader.upTo_append (ht 0) x
    rw [happend, hx, List.append_nil]
  have htu : t = u := by rw [← hread ht hx, h, hread hu hy]
  subst htu
  exact ⟨rfl, List.append_cancel_left h⟩

def isMark (c : Char) : Bool :=
  c = '"' || Reader.isOpening c || Reader.isClosing c || Reader.isSeparator c

theorem closed_of_unmarked {t : List Char} (h : ∀ c ∈ t, isMark c = false) : Closed t := by
  intro depth
  induction t with
  | nil => rfl
  | cons c rest ih =>
    obtain ⟨hc, hrest⟩ := List.forall_mem_cons.mp h
    simp only [isMark, Bool.or_eq_false_iff, decide_eq_false_iff_not] at hc
    obtain ⟨⟨⟨hquote, hopening⟩, hclosing⟩, hseparator⟩ := hc
    have hpast : Reader.past ⟨depth, .plain⟩ c = some ⟨depth, .plain⟩ := by
      simp [Reader.past, hquote, hopening, hclosing, hseparator]
    rw [Reader.pastAll, hpast]
    exact ih hrest

theorem unmarked_of_all {t : List Char} (h : t.all (fun c => !isMark c) = true) :
    ∀ c ∈ t, isMark c = false := by simpa using h

theorem isMark_of_isDigit {c : Char} (h : c.isDigit = true) : isMark c = false := by
  by_contra hmark
  simp only [isMark, Reader.isOpening, Reader.isClosing, Reader.isSeparator, Bool.not_eq_false,
    Bool.or_eq_true, decide_eq_true_eq] at hmark
  rcases hmark with ((rfl | rfl | rfl) | rfl | rfl) | rfl | rfl
  all_goals exact absurd h (by decide)

theorem unmarked_toDigits {n : Nat} {c : Char} (h : c ∈ Nat.toDigits 10 n) : isMark c = false :=
  isMark_of_isDigit (Nat.isDigit_of_mem_toDigits (by decide) (by decide) h)

def unescaped (letter : Char) : Char :=
  if letter = 'b' then '\x08'
  else if letter = 'f' then '\x0c'
  else if letter = 'n' then '\n'
  else if letter = 'r' then '\r'
  else if letter = 't' then '\t'
  else letter

theorem escapedChar_cases (c : Char) :
    c ≠ '"' ∧ c ≠ '\\' ∧ escapedChar c = [c] ∨
      (∃ letter, letter ≠ 'u' ∧ unescaped letter = c ∧ escapedChar c = ['\\', letter]) ∨
      c.toNat < 32 ∧ escapedChar c = '\\' :: 'u' :: Text.Hex.encode 4 c.toNat := by
  by_cases hletter : c = '"' ∨ c = '\\' ∨ c = '\x08' ∨ c = '\x0c' ∨ c = '\n' ∨ c = '\r' ∨ c = '\t'
  · right
    left
    rcases hletter with rfl | rfl | rfl | rfl | rfl | rfl | rfl
    all_goals exact ⟨_, by decide, rfl, rfl⟩
  · simp only [not_or] at hletter
    obtain ⟨hquote, hbackslash, h8, hc, hn, hr, ht⟩ := hletter
    rw [escapedChar, if_neg hquote, if_neg hbackslash, if_neg h8, if_neg hc, if_neg hn, if_neg hr,
      if_neg ht]
    by_cases hcontrol : c.toNat < 0x20
    · rw [if_pos hcontrol]
      exact Or.inr (Or.inr ⟨hcontrol, rfl⟩)
    · rw [if_neg hcontrol]
      exact Or.inl ⟨hquote, hbackslash, rfl⟩

theorem mem_encode {width n : Nat} {c : Char} (h : c ∈ Text.Hex.encode width n) :
    c ≠ '"' ∧ c ≠ '\\' := by
  have hdigit : ∀ n < 16, Text.Hex.digit n ≠ '"' ∧ Text.Hex.digit n ≠ '\\' := by decide
  induction width generalizing n with
  | zero => cases h
  | succ width ih =>
    rw [Text.Hex.encode, List.mem_append, List.mem_singleton] at h
    rcases h with h | rfl
    · exact ih h
    · exact hdigit _ (Nat.mod_lt n (by decide))

theorem pastAll_quoted (depth : Nat) {t : List Char} (h : ∀ c ∈ t, c ≠ '"' ∧ c ≠ '\\') :
    Reader.pastAll ⟨depth, .quoted⟩ t = some ⟨depth, .quoted⟩ := by
  induction t with
  | nil => rfl
  | cons c rest ih =>
    obtain ⟨⟨hquote, hbackslash⟩, hrest⟩ := List.forall_mem_cons.mp h
    have hpast : Reader.past ⟨depth, .quoted⟩ c = some ⟨depth, .quoted⟩ := by
      simp [Reader.past, hquote, hbackslash]
    rw [Reader.pastAll, hpast]
    exact ih hrest

theorem pastAll_escapedChar (depth : Nat) (c : Char) :
    Reader.pastAll ⟨depth, .quoted⟩ (escapedChar c) = some ⟨depth, .quoted⟩ := by
  rcases escapedChar_cases c with ⟨hquote, hbackslash, heq⟩ | ⟨letter, -, -, heq⟩ | ⟨-, heq⟩
  · rw [heq]
    exact pastAll_quoted depth (by simp [hquote, hbackslash])
  · rw [heq]
    rfl
  · rw [heq]
    change Reader.pastAll ⟨depth, .quoted⟩ (Text.Hex.encode 4 c.toNat) = _
    exact pastAll_quoted depth fun c hc => mem_encode hc

theorem closed_stringText (s : String) : Closed (stringText s) := by
  intro depth
  have hchars (cs : List Char) : Reader.pastAll ⟨depth, .quoted⟩ (cs.flatMap escapedChar) =
      some ⟨depth, .quoted⟩ := by
    induction cs with
    | nil => rfl
    | cons c rest ih =>
      rw [List.flatMap_cons, Reader.pastAll_append_some (pastAll_escapedChar depth c)]
      exact ih
  rw [stringText, List.append_assoc, List.singleton_append]
  change Reader.pastAll ⟨depth, .quoted⟩ (s.toList.flatMap escapedChar ++ ['"']) = _
  rw [Reader.pastAll_append_some (hchars s.toList)]
  rfl

def readChar : List Char → Option (Char × List Char)
  | '\\' :: 'u' :: a :: b :: c :: d :: rest =>
    (Text.Hex.decode? [a, b, c, d]).map fun n => (Char.ofNat n, rest)
  | '\\' :: letter :: rest => some (unescaped letter, rest)
  | c :: rest => some (c, rest)
  | [] => none

theorem readChar_escapedChar (c : Char) (rest : List Char) :
    readChar (escapedChar c ++ rest) = some (c, rest) := by
  rcases escapedChar_cases c with ⟨-, hbackslash, heq⟩ | ⟨letter, hu, hletter, heq⟩ | ⟨hlt, heq⟩
  · rw [heq, List.singleton_append, readChar]
    · simp [hbackslash]
    · simp [hbackslash]
  · rw [heq, ← hletter]
    change readChar ('\\' :: letter :: rest) = _
    rw [readChar]
    simp [hu]
  · have hdecode : ∀ n < 32, Text.Hex.decode? (Text.Hex.encode 4 n) = some n := by decide
    rw [heq]
    change (Text.Hex.decode? (Text.Hex.encode 4 c.toNat)).map (fun n => (Char.ofNat n, rest)) = _
    rw [hdecode _ hlt, Option.map_some, Char.ofNat_toNat]

theorem flatMap_escapedChar_inj {cs ds : List Char}
    (h : cs.flatMap escapedChar = ds.flatMap escapedChar) : cs = ds := by
  have hread (c : Char) (cs : List Char) :
      readChar ((c :: cs).flatMap escapedChar) = some (c, cs.flatMap escapedChar) := by
    rw [List.flatMap_cons, readChar_escapedChar]
  induction cs generalizing ds with
  | nil =>
    rcases ds with _ | ⟨d, ds⟩
    · rfl
    · have hd := hread d ds
      rw [← h] at hd
      cases hd
  | cons c cs ih =>
    have hc := hread c cs
    rcases ds with _ | ⟨d, ds⟩
    · rw [h] at hc
      cases hc
    · rw [h, hread d ds] at hc
      obtain ⟨rfl, hrest⟩ := Prod.mk.inj (Option.some.inj hc)
      rw [ih hrest.symm]

theorem stringText_inj {s t : String} (h : stringText s = stringText t) : s = t := by
  rw [stringText, stringText, List.append_cancel_right_eq, List.append_cancel_left_eq] at h
  exact String.toList_inj.mp (flatMap_escapedChar_inj h)

namespace Json

theorem toList_toString (n : Int) : (toString n).toList =
    (if n < 0 then ['-'] else []) ++ Nat.toDigits 10 n.natAbs := by
  cases n with
  | ofNat n =>
    have hrepr : toString (Int.ofNat n) = Nat.repr n := rfl
    have hnonneg : ¬ Int.ofNat n < 0 := Int.not_lt.mpr (Int.natCast_nonneg n)
    rw [hrepr, Nat.toList_repr, if_neg hnonneg]
    rfl
  | negSucc n =>
    have hrepr : toString (Int.negSucc n) = "-" ++ Nat.repr (n + 1) := rfl
    rw [hrepr, String.toList_append, Nat.toList_repr, if_pos (Int.negSucc_lt_zero n)]
    rfl

theorem closed_integer (n : Int) : Closed (toString n).toList := by
  apply closed_of_unmarked
  intro c hc
  rw [toList_toString, List.mem_append] at hc
  rcases hc with hc | hc
  · split at hc
    · rw [List.mem_singleton.mp hc]
      rfl
    · cases hc
  · exact unmarked_toDigits hc

abbrev Unmarked (s : String) : Prop := ∀ c ∈ s.toList, isMark c = false

theorem Unmarked.append {s t : String} (hs : Unmarked s) (ht : Unmarked t) : Unmarked (s ++ t) := by
  intro c hc
  rw [String.toList_append, List.mem_append] at hc
  exact hc.elim (hs c) (ht c)

theorem unmarked_ofDigits {n : Nat} {cs : List Char} (h : ∀ c ∈ cs, c ∈ Nat.toDigits 10 n) :
    Unmarked (String.ofList cs) := by
  intro c hc
  rw [String.toList_ofList] at hc
  exact unmarked_toDigits (h c hc)

theorem unmarked_zeros (n : Nat) : Unmarked (Decimal.zeros n) := by
  intro c hc
  rw [Decimal.zeros, String.toList_ofList] at hc
  rw [List.eq_of_mem_replicate hc]
  rfl

theorem unmarked_positionalText (pointZero : Bool) (s : Decimal.Scaled) :
    Unmarked (Decimal.positionalText pointZero s) := by
  unfold Decimal.positionalText
  dsimp only
  split
  · apply Unmarked.append
    · exact (unmarked_ofDigits fun c hc => hc).append (unmarked_zeros _)
    · cases pointZero
      · exact unmarked_of_all rfl
      · exact unmarked_of_all rfl
  · split
    · apply Unmarked.append
      · exact (unmarked_ofDigits fun c hc => List.mem_of_mem_take hc).append (unmarked_of_all rfl)
      · exact unmarked_ofDigits fun c hc => List.mem_of_mem_drop hc
    · apply Unmarked.append
      · exact Unmarked.append (unmarked_of_all rfl) (unmarked_zeros _)
      · exact unmarked_ofDigits fun c hc => hc

theorem unmarked_exponentText (s : Decimal.Scaled) : Unmarked (Decimal.exponentText s) := by
  unfold Decimal.exponentText
  dsimp only
  apply Unmarked.append
  · apply Unmarked.append
    · apply Unmarked.append
      · exact unmarked_ofDigits fun c hc => List.mem_of_mem_take hc
      · split
        · exact unmarked_of_all rfl
        · exact Unmarked.append (unmarked_of_all rfl)
            (unmarked_ofDigits fun c hc => List.mem_of_mem_drop hc)
    · split
      · exact unmarked_of_all rfl
      · exact unmarked_of_all rfl
  · exact unmarked_ofDigits fun c hc => hc

theorem unmarked_magnitudeText (m : Nat) (e : Int) : Unmarked (doubleStyle.magnitudeText m e) := by
  unfold Decimal.Style.magnitudeText
  split
  · exact unmarked_of_all rfl
  · dsimp only
    split
    · exact unmarked_positionalText _ _
    · exact unmarked_exponentText _

theorem closed_double (x : Float) : Closed (doubleStyle.render x).toList := by
  apply closed_of_unmarked
  have hsign (s : Float.Model.UnpackedFloat.Sign) : Unmarked (Decimal.signText s) := by
    cases s
    · exact unmarked_of_all rfl
    · exact unmarked_of_all rfl
  unfold Decimal.Style.render
  split
  · exact unmarked_of_all rfl
  · exact unmarked_of_all rfl
  · exact unmarked_of_all rfl
  · exact (hsign _).append (unmarked_magnitudeText 0 0)
  · exact (hsign _).append (unmarked_magnitudeText _ _)

mutual

theorem closed_text : ∀ j : Json, Closed j.text
  | .null | .unusable => closed_of_unmarked (unmarked_of_all rfl)
  | .boolean b => by
    rw [text]
    cases b
    · exact closed_of_unmarked (unmarked_of_all rfl)
    · exact closed_of_unmarked (unmarked_of_all rfl)
  | .integer n => closed_integer n
  | .double x => closed_double x
  | .string s => closed_stringText s
  | .array items => closed_array (closedInside_itemsText items)
  | .object fields => closed_object (closedInside_fieldsText fields)

theorem closedInside_itemsText : ∀ items : List Json, ClosedInside (itemsText items)
  | [] => closedInside_nil
  | [j] => (closed_text j).inside
  | j :: k :: rest =>
    ((closed_text j).inside.append (closedInside_separator (Or.inl rfl))).append
      (closedInside_itemsText (k :: rest))

theorem closedInside_fieldsText : ∀ fields : List (String × Json), ClosedInside (fieldsText fields)
  | [] => closedInside_nil
  | [(k, j)] =>
    ((closed_stringText k).inside.append (closedInside_separator (Or.inr rfl))).append
      (closed_text j).inside
  | (k, j) :: field :: rest =>
    ((((closed_stringText k).inside.append (closedInside_separator (Or.inr rfl))).append
      (closed_text j).inside).append (closedInside_separator (Or.inl rfl))).append
        (closedInside_fieldsText (field :: rest))

end

theorem text_ne_nil (j : Json) : j.text ≠ [] := by
  intro h
  cases j with
  | null | unusable => exact absurd h (by decide)
  | boolean b =>
    rw [text] at h
    cases b
    · exact absurd h (by decide)
    · exact absurd h (by decide)
  | integer n =>
    rw [text, toList_toString] at h
    exact Nat.toDigits_ne_nil (List.append_eq_nil_iff.mp h).2
  | double x =>
    have hmagnitude (s : Float.Model.UnpackedFloat.Sign) (m : ℕ) (e : ℤ) :
        (Decimal.signText s ++ doubleStyle.magnitudeText m e).toList ≠ [] := by
      obtain ⟨d, rest, htext, -⟩ := Decimal.startsWithDigit_magnitudeText doubleStyle m e
      rw [String.toList_append, htext]
      exact List.append_ne_nil_of_right_ne_nil _ (List.cons_ne_nil d rest)
    rw [text, Decimal.Style.render] at h
    split at h
    · exact absurd h (by decide)
    · exact absurd h (by decide)
    · exact absurd h (by decide)
    · exact hmagnitude _ _ _ h
    · exact hmagnitude _ _ _ h
  | string s => cases h
  | array items => cases h
  | object fields => cases h

def itemsTail : List Json → List Char
  | [] => []
  | j :: rest => ',' :: itemsText (j :: rest)

theorem itemsText_cons (j : Json) (rest : List Json) :
    itemsText (j :: rest) = j.text ++ itemsTail rest := by
  cases rest with
  | nil => exact (List.append_nil _).symm
  | cons k rest => exact List.append_assoc _ [','] _

theorem stops_itemsTail (items : List Json) : Stops (itemsTail items) := by
  cases items with
  | nil => exact stops_nil
  | cons j rest => exact stops_cons (Or.inl rfl) _

theorem itemsText_inj {js ks : List Json} (h : itemsText js = itemsText ks) :
    js.map text = ks.map text := by
  induction js generalizing ks with
  | nil =>
    rcases ks with _ | ⟨k, more⟩
    · rfl
    · rw [itemsText_cons] at h
      exact absurd (List.append_eq_nil_iff.mp h.symm).1 (text_ne_nil k)
  | cons j rest ih =>
    rw [itemsText_cons] at h
    rcases ks with _ | ⟨k, more⟩
    · exact absurd (List.append_eq_nil_iff.mp h).1 (text_ne_nil j)
    · rw [itemsText_cons] at h
      obtain ⟨htext, htail⟩ := (closed_text j).append_inj (closed_text k) (stops_itemsTail rest)
        (stops_itemsTail more) h
      have hrest : itemsText rest = itemsText more := by
        rcases rest with _ | ⟨j', rest⟩ <;> rcases more with _ | ⟨k', more⟩
        · rfl
        · cases htail
        · cases htail
        · exact (List.cons.inj htail).2
      rw [List.map_cons, List.map_cons, htext, ih hrest]

def fieldText (field : String × Json) : String × List Char := (field.1, field.2.text)

def fieldsTail : List (String × Json) → List Char
  | [] => []
  | field :: rest => ',' :: fieldsText (field :: rest)

theorem fieldsText_cons (field : String × Json) (rest : List (String × Json)) :
    fieldsText (field :: rest) =
      stringText field.1 ++ ':' :: (field.2.text ++ fieldsTail rest) := by
  rcases field with ⟨k, j⟩
  cases rest with
  | nil => simp [fieldsText, fieldsTail]
  | cons field rest => simp [fieldsText, fieldsTail]

theorem stops_fieldsTail (fields : List (String × Json)) : Stops (fieldsTail fields) := by
  cases fields with
  | nil => exact stops_nil
  | cons field rest => exact stops_cons (Or.inl rfl) _

theorem fieldsText_inj {fs gs : List (String × Json)} (h : fieldsText fs = fieldsText gs) :
    fs.map fieldText = gs.map fieldText := by
  induction fs generalizing gs with
  | nil =>
    rcases gs with _ | ⟨g, more⟩
    · rfl
    · rw [fieldsText_cons] at h
      cases h
  | cons f rest ih =>
    rw [fieldsText_cons] at h
    rcases gs with _ | ⟨g, more⟩
    · cases h
    · rw [fieldsText_cons] at h
      obtain ⟨hkey, hcolon⟩ := (closed_stringText f.1).append_inj (closed_stringText g.1)
        (stops_cons (Or.inr (Or.inl rfl)) _) (stops_cons (Or.inr (Or.inl rfl)) _) h
      obtain ⟨htext, htail⟩ := (closed_text f.2).append_inj (closed_text g.2)
        (stops_fieldsTail rest) (stops_fieldsTail more) (List.cons.inj hcolon).2
      have hrest : fieldsText rest = fieldsText more := by
        rcases rest with _ | ⟨f', rest⟩ <;> rcases more with _ | ⟨g', more⟩
        · rfl
        · cases htail
        · cases htail
        · exact (List.cons.inj htail).2
      rw [List.map_cons, List.map_cons, fieldText, fieldText, stringText_inj hkey, htext, ih hrest]

@[simp] theorem text_string_iff {s t : String} : (string s).text = (string t).text ↔ s = t := by
  constructor
  · exact stringText_inj
  · rintro rfl
    rfl

theorem text_boolean_inj {a b : Bool} (h : (boolean a).text = (boolean b).text) : a = b := by
  cases a <;> cases b <;> first | rfl | exact absurd h (by decide)

theorem text_integer_inj {m n : ℤ} (h : (integer m).text = (integer n).text) : m = n :=
  Int.repr_injective (String.toList_inj.mp h)

theorem text_integer_ne_null (n : ℤ) : (integer n).text ≠ null.text := by
  intro h
  have hmem : 'n' ∈ (toString n).toList := by
    change 'n' ∈ (integer n).text
    rw [h]
    decide
  rw [toList_toString, List.mem_append] at hmem
  rcases hmem with hsign | hdigit
  · split at hsign
    · exact absurd hsign (by decide)
    · cases hsign
  · exact absurd (Nat.isDigit_of_mem_toDigits (by decide) (by decide) hdigit) (by decide)

theorem text_double_inj {x y : Float} (hx : x.isFinite = true) (hy : y.isFinite = true)
    (h : (double x).text = (double y).text) : x = y :=
  Decimal.render_inj rfl hx hy (String.toList_inj.mp h)

theorem text_array_inj {js ks : List Json} (h : (array js).text = (array ks).text) :
    js.map text = ks.map text := by
  rw [text, text, List.append_cancel_right_eq, List.append_cancel_left_eq] at h
  exact itemsText_inj h

theorem text_object_inj {fs gs : List (String × Json)} (h : (object fs).text = (object gs).text) :
    fs.map fieldText = gs.map fieldText := by
  rw [text, text, List.append_cancel_right_eq, List.append_cancel_left_eq] at h
  exact fieldsText_inj h

theorem text_list_inj {α : Type} {write : α → Json}
    (hwrite : ∀ a b, (write a).text = (write b).text → a = b) {as bs : List α}
    (h : (array (as.map write)).text = (array (bs.map write)).text) : as = bs := by
  have hmap := text_array_inj h
  rw [List.map_map, List.map_map] at hmap
  exact List.map_injective_iff.mpr (fun a b hab => hwrite a b hab) hmap

theorem text_strings_inj {ss ts : List String} (h : (strings ss).text = (strings ts).text) :
    ss = ts :=
  text_list_inj (fun _ _ => text_string_iff.mp) h

theorem text_bytes_inj {bs cs : List UInt8} (h : (bytes bs).text = (bytes cs).text) : bs = cs :=
  text_list_inj (fun _ _ h => UInt8.toNat_inj.mp (Int.ofNat.inj (text_integer_inj h))) h

theorem text_ofOption_inj {α : Type} {write : α → Json} (hnull : ∀ a, (write a).text ≠ null.text)
    (hwrite : ∀ a b, (write a).text = (write b).text → a = b) {x y : Option α}
    (h : (ofOption write x).text = (ofOption write y).text) : x = y := by
  rcases x with _ | a <;> rcases y with _ | b
  · rfl
  · exact absurd h.symm (hnull b)
  · exact absurd h (hnull a)
  · rw [hwrite a b h]

end Json

end RelDoc.Wire
