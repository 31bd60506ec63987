import RelDoc.Filter
import RelDoc.Pattern.Operands

namespace RelDoc.Pattern

namespace Reader

def Reads (r : Reader) (p : Pattern) : Prop := ∀ fuel, r.rest.length < fuel → run? fuel r = some p

variable {r next : Reader} {p : Pattern} {c : Char} {rest : List Char}

theorem skip_false (cs : List Char) : skip false cs = cs := by
  cases cs with
  | nil => rw [skip]
  | cons c rest => rw [skip, Bool.not_false, if_pos rfl]

theorem reads_end (hverbose : r.flags.verbose = false) (hframes : r.frames = []) (hrest : r.rest = []) :
    r.Reads r.level.pattern := by
  intro fuel hfuel
  cases fuel with
  | zero => exact absurd hfuel (Nat.not_lt_zero _)
  | succ fuel =>
    rw [run?, hverbose, skip_false, hrest, hframes]
    rfl

theorem reads_step (hverbose : r.flags.verbose = false) (hrest : r.rest = c :: rest)
    (hstep : r.step? c rest = some next) (hshort : next.rest.length ≤ rest.length)
    (hnext : next.Reads p) : r.Reads p := by
  intro fuel hfuel
  rw [hrest, List.length_cons] at hfuel
  cases fuel with
  | zero => exact absurd hfuel (Nat.not_lt_zero _)
  | succ fuel =>
    rw [run?, hverbose, skip_false, hrest]
    change (r.step? c rest).bind (run? fuel) = some p
    rw [hstep]
    exact hnext fuel (by omega)

theorem escaped?_meta (hc : isMeta c = true) (rest : List Char) :
    escaped? (c :: rest) = some (.char c, rest) := by
  have hescapable : isEscapable c = true := by rw [isEscapable, hc, Bool.true_or]
  unfold escaped?
  dsimp only
  split <;> first | exact absurd hc (by decide) | exact if_pos hescapable

theorem step?_meta (hc : isMeta c = true) (r : Reader) (rest : List Char) :
    r.step? '\\' (c :: rest) = some (r.push (literal r.flags c) rest) := by
  rw [step?, escaped?_meta hc]
  rfl

theorem step?_plain (hc : isMeta c = false) (r : Reader) (rest : List Char) :
    r.step? c rest = some (r.push (literal r.flags c) rest) := by
  unfold step?
  split <;> first | rfl | exact absurd hc (by decide)

end Reader

namespace Like

open Reader

variable {r : Reader} {p : Pattern}

def Token.item (flags : Flags) : Token → Pattern
  | .literal c => Reader.literal flags c
  | .anything => .repeated (dot flags) 0 none

theorem Token.pattern_literal (c : Char) :
    (Token.literal c).pattern = if isMeta c then ['\\', c] else [c] := by
  rw [Token.pattern, escape, List.flatMap_singleton]

theorem head?_pattern (t : Token) (rest : List Char) : (t.pattern ++ rest).head? ≠ some '?' := by
  cases t with
  | anything => simp [Token.pattern]
  | literal c =>
    rw [Token.pattern_literal]
    split
    · simp
    · rename_i hc
      rintro hhead
      obtain rfl := Option.some.inj hhead
      exact hc (by decide)

theorem dropLazy_eq {cs : List Char} (h : cs.head? ≠ some '?') : dropLazy cs = cs := by
  unfold dropLazy
  split
  · exact absurd rfl h
  · rfl

theorem reads_token {t : Token} {rest : List Char} (hverbose : r.flags.verbose = false)
    (hrest : r.rest = t.pattern ++ rest) (hlazy : rest.head? ≠ some '?')
    (hnext : (r.push (t.item r.flags) rest).Reads p) : r.Reads p := by
  cases t with
  | literal c =>
    rw [Token.pattern_literal] at hrest
    rcases hc : isMeta c with _ | _
    · rw [hc] at hrest
      exact reads_step hverbose hrest (step?_plain hc r rest) (Nat.le_refl _) hnext
    · rw [hc] at hrest
      exact reads_step hverbose hrest (step?_meta hc r rest) (Nat.le_succ _) hnext
  | anything =>
    have hdot : r.step? '.' ('*' :: rest) = some (r.push (dot r.flags) ('*' :: rest)) := rfl
    have hstar : (r.push (dot r.flags) ('*' :: rest)).step? '*' rest =
        some (r.push (Token.anything.item r.flags) rest) := by
      change (r.push (dot r.flags) ('*' :: rest)).repeatLast? 0 none (dropLazy rest) = _
      rw [dropLazy_eq hlazy]
      rfl
    apply reads_step hverbose hrest hdot (Nat.le_refl _)
    exact reads_step hverbose rfl hstar (Nat.le_refl _) hnext

theorem reads_tokens (ts : List Token) {rest : List Char} (hverbose : r.flags.verbose = false)
    (hrest : r.rest = ts.flatMap Token.pattern ++ rest) (hlazy : rest.head? ≠ some '?')
    (hnext : { r with
      level := { r.level with
        items := (ts.map fun t => some (t.item r.flags)).reverse ++ r.level.items }
      rest : Reader }.Reads p) : r.Reads p := by
  induction ts generalizing r with
  | nil =>
    obtain ⟨frames, ⟨branches, items⟩, flags, names, text⟩ := r
    obtain rfl : text = rest := hrest
    exact hnext
  | cons t ts ih =>
    rw [List.flatMap_cons, List.append_assoc] at hrest
    have hlazy' : (ts.flatMap Token.pattern ++ rest).head? ≠ some '?' := by
      cases ts with
      | nil => exact hlazy
      | cons next more =>
        rw [List.flatMap_cons, List.append_assoc]
        exact head?_pattern next _
    apply reads_token hverbose hrest hlazy'
    apply ih (r := r.push (t.item r.flags) (ts.flatMap Token.pattern ++ rest)) hverbose rfl
    simpa [push] using hnext

def front (flags : Flags) (cs : List Char) : List Pattern :=
  if cs.head? = some '%' then [] else
    [.assertion (if flags.multiLine then .lineStart else .textStart)]

def back (flags : Flags) (cs : List Char) : List Pattern :=
  if cs.getLast? = some '%' then [] else
    [.assertion (if flags.multiLine then .lineEnd else .textEnd)]

def items (flags : Flags) (cs : List Char) : List Pattern :=
  front flags cs ++ (tokens cs).map (Token.item flags) ++ back flags cs

variable {flags : Flags} {before : Items} {cs rest : List Char}

theorem reads_back (hverbose : flags.verbose = false) :
    Reader.Reads ⟨[], ⟨[], before⟩, flags, [], if cs.getLast? = some '%' then [] else ['$']⟩
      (sequence (((back flags cs).map some).reverse ++ before)) := by
  rw [back]
  split
  · exact reads_end hverbose rfl rfl
  · exact reads_step hverbose rfl rfl (Nat.le_refl _) (reads_end hverbose rfl rfl)

theorem reads_front (hverbose : flags.verbose = false)
    (h : Reader.Reads ⟨[], ⟨[], ((front flags cs).map some).reverse⟩, flags, [], rest⟩ p) :
    Reader.Reads ⟨[], ⟨[], []⟩, flags, [],
      (if cs.head? = some '%' then [] else ['^']) ++ rest⟩ p := by
  rw [front] at h
  split
  · rename_i hhead
    rw [if_pos hhead] at h
    exact h
  · rename_i hhead
    rw [if_neg hhead] at h
    exact reads_step hverbose rfl rfl (Nat.le_refl _) h

theorem parse?_pattern (hverbose : flags.verbose = false) (cs : List Char) :
    parse? flags (pattern cs) = some (sequence ((items flags cs).map some).reverse) := by
  have hreads : Reader.Reads ⟨[], ⟨[], []⟩, flags, [], pattern cs⟩
      (sequence ((items flags cs).map some).reverse) := by
    rw [pattern, List.append_assoc]
    apply reads_front hverbose
    refine reads_tokens (tokens cs) hverbose rfl ?_ ?_
    · split <;> decide
    · rw [items, List.append_assoc, List.map_append, List.map_append, List.reverse_append,
        List.reverse_append, List.map_map, List.append_assoc]
      exact reads_back hverbose
  exact hreads _ (Nat.lt_succ_self _)

end Like

end RelDoc.Pattern

namespace RelDoc.Filter

open Pattern

theorem regex_like (s : String) :
    regex (String.ofList (Like.pattern s.toList)) "i" =
      .ok (sequence ((Like.items ⟨true, false, false, false⟩ s.toList).map some).reverse) := by
  have hflags : regexFlags "i".toList = .ok ⟨true, false, false, false⟩ := rfl
  have hverbose : Flags.verbose ⟨true, false, false, false⟩ = false := rfl
  rw [regex, hflags, String.toList_ofList]
  simp only [bind, Except.bind, Like.parse?_pattern hverbose]

end RelDoc.Filter
