import RelDoc.Proofs.PathWrites
import RelDoc.Proofs.SharedShapes
import RelDoc.Proofs.UnwoundArrays

namespace RelDoc

theorem Path.exists_dot_of_pieces {cs : List Char} {front rest : List (List Char)}
    (h : pieces cs = front ++ rest) (hfront : front ≠ []) (hrest : rest ≠ []) :
    ∃ p q, cs = p ++ '.' :: q ∧ pieces p = front ∧ pieces q = rest := by
  induction cs generalizing front with
  | nil =>
    rcases front with _ | ⟨piece, front⟩
    · exact absurd rfl hfront
    · have hnil := (List.cons.inj h).2
      exact absurd (List.append_eq_nil_iff.mp hnil.symm).2 hrest
  | cons c cs ih =>
    rcases front with _ | ⟨piece, front⟩
    · exact absurd rfl hfront
    by_cases hc : c = '.'
    · subst hc
      rw [pieces, if_pos rfl] at h
      obtain ⟨rfl, htail⟩ := List.cons.inj h
      rcases front with _ | ⟨next, front⟩
      · exact ⟨[], cs, rfl, rfl, htail⟩
      · obtain ⟨p, q, rfl, hp, hq⟩ := ih htail (List.cons_ne_nil _ _)
        exact ⟨'.' :: p, q, rfl, by rw [pieces, if_pos rfl, hp], hq⟩
    · rw [pieces, if_neg hc] at h
      obtain ⟨first, more, hpieces⟩ := List.exists_cons_of_ne_nil (pieces_ne_nil cs)
      rw [hpieces] at h
      obtain ⟨rfl, htail⟩ := List.cons.inj h
      have hparted : pieces cs = (first :: front) ++ rest := hpieces.trans (congrArg _ htail)
      obtain ⟨p, q, rfl, hp, hq⟩ := ih hparted (List.cons_ne_nil _ _)
      exact ⟨c :: p, q, rfl, by rw [pieces, if_neg hc, hp], hq⟩

theorem Path.exists_star_of_pieces {cs : List Char} {rest : List (List Char)}
    (h : pieces cs = ['*'] :: rest) (hrest : rest ≠ []) : ∃ b, cs = '*' :: '.' :: b := by
  have hparted : pieces cs = [['*']] ++ rest := h
  obtain ⟨star, b, rfl, hstar, -⟩ := exists_dot_of_pieces hparted (List.cons_ne_nil _ _) hrest
  obtain rfl := eq_of_pieces_singleton hstar
  exact ⟨b, rfl⟩

namespace Plan

def markers (column : String) : Nat := (Path.segments column).tail.dropLast.count "*"

def Doubled (column : String) : Prop :=
  markers column = 2 ∧ ∃ array inner, column = array ++ ".*.*." ++ inner

def starsBetween (cs : List Char) : Nat := (Path.pieces cs).tail.dropLast.count ['*']

def starsAfter (cs : List Char) : Nat := (Path.pieces cs).tail.count ['*']

def starsBefore (cs : List Char) : Nat := (Path.pieces cs).dropLast.count ['*']

theorem markers_eq (column : String) : markers column = starsBetween column.toList := by
  rw [markers, Path.segments, ← List.map_tail, ← List.map_dropLast]
  exact List.count_map_of_injective _ String.ofList (fun _ _ => String.ofList_injective) ['*']

theorem starsBetween_append_dot (a b : List Char) :
    starsBetween (a ++ '.' :: b) = starsAfter a + starsBefore b := by
  rw [starsBetween, Path.pieces_append_dot, List.tail_append_of_ne_nil (Path.pieces_ne_nil a),
    List.dropLast_append_of_ne_nil (Path.pieces_ne_nil b), List.count_append, starsAfter, starsBefore]

theorem starsBefore_star (b : List Char) : starsBefore ('*' :: '.' :: b) = starsBefore b + 1 := by
  have hpieces : Path.pieces ('*' :: '.' :: b) = ['*'] :: Path.pieces b :=
    Path.pieces_append_dot ['*'] b
  rw [starsBefore, hpieces, List.dropLast_cons_of_ne_nil (Path.pieces_ne_nil b), List.count_cons_self,
    starsBefore]

theorem starsBetween_marker (a b : List Char) :
    starsBetween (a ++ (marker ++ b)) = starsAfter a + starsBefore b + 1 := by
  change starsBetween (a ++ '.' :: '*' :: '.' :: b) = _
  rw [starsBetween_append_dot, starsBefore_star]
  omega

theorem infix_iff_starsBetween (cs : List Char) : marker <:+: cs ↔ 0 < starsBetween cs := by
  constructor
  · rintro ⟨a, b, rfl⟩
    rw [List.append_assoc, starsBetween_marker]
    omega
  · intro h
    obtain ⟨front, rest, hinner⟩ := List.append_of_mem (List.count_pos_iff.mp h)
    obtain ⟨first, more, hpieces⟩ := List.exists_cons_of_ne_nil (Path.pieces_ne_nil cs)
    rw [hpieces, List.tail_cons] at hinner
    have hmore : more ≠ [] := by
      rintro rfl
      simp at hinner
    obtain ⟨last, hlast⟩ : ∃ last, more.dropLast ++ [last] = more :=
      ⟨_, List.dropLast_append_getLast hmore⟩
    have hparted : Path.pieces cs = (first :: front) ++ (['*'] :: (rest ++ [last])) := by
      rw [hpieces, ← hlast, hinner]
      simp
    obtain ⟨a, tail, rfl, -, htail⟩ := Path.exists_dot_of_pieces hparted (by simp) (by simp)
    obtain ⟨b, rfl⟩ := Path.exists_star_of_pieces htail (by simp)
    exact ⟨a, b, by simp [marker]⟩

theorem starsAfter_eq_zero {a : List Char} : ¬marker <:+: a ++ ['.'] ↔ starsAfter a = 0 := by
  have hcount : starsBetween (a ++ ['.']) = starsAfter a := starsBetween_append_dot a []
  rw [infix_iff_starsBetween, hcount]
  omega

theorem starsBefore_cases (b : List Char) : starsBefore b = starsBetween b ∨
    ∃ rest, b = '*' :: '.' :: rest ∧ starsBefore b = starsBetween b + 1 := by
  obtain ⟨first, more, hpieces⟩ := List.exists_cons_of_ne_nil (Path.pieces_ne_nil b)
  rw [starsBefore, starsBetween, hpieces]
  rcases more with _ | ⟨second, more⟩
  · exact Or.inl rfl
  · rw [List.dropLast_cons_of_ne_nil (List.cons_ne_nil second more), List.tail_cons]
    by_cases hstar : first = ['*']
    · subst hstar
      obtain ⟨rest, rfl⟩ := Path.exists_star_of_pieces hpieces (List.cons_ne_nil second more)
      exact Or.inr ⟨rest, rfl, List.count_cons_self⟩
    · exact Or.inl (List.count_cons_of_ne hstar)

theorem markerParts_ne_nil (cs : List Char) : markerParts cs ≠ [] := by
  unfold markerParts
  split
  · exact List.cons_ne_nil _ _
  · exact List.cons_ne_nil _ _
  · split <;> exact List.cons_ne_nil _ _

theorem exists_first_marker {cs : List Char} (h : marker <:+: cs) :
    ∃ a b, cs = a ++ (marker ++ b) ∧ starsAfter a = 0 := by
  induction cs with
  | nil => cases List.eq_nil_of_infix_nil h
  | cons c cs ih =>
    by_cases hfront : marker <+: c :: cs
    · obtain ⟨b, hb⟩ := hfront
      exact ⟨[], b, hb.symm, rfl⟩
    · obtain ⟨a, b, rfl, ha⟩ := ih ((List.infix_cons_iff.mp h).resolve_left hfront)
      refine ⟨c :: a, b, rfl, starsAfter_eq_zero.mp fun hinfix => ?_⟩
      rcases List.infix_cons_iff.mp hinfix with hstart | hlater
      · have hmore : a ++ ['.'] <+: a ++ (marker ++ b) :=
          (List.prefix_append_right_inj a).mpr (List.prefix_append ['.'] ('*' :: '.' :: b))
        exact hfront (hstart.trans (List.cons_prefix_cons.mpr ⟨rfl, hmore⟩))
      · exact starsAfter_eq_zero.mpr ha hlater

section target

variable {column array inner : String}

theorem toList_dot (array inner : String) :
    (array ++ "." ++ inner).toList = array.toList ++ '.' :: inner.toList := by
  rw [String.toList_append, String.toList_append, List.append_assoc]
  rfl

theorem toList_marker (array inner : String) :
    (array ++ ".*." ++ inner).toList = array.toList ++ (marker ++ inner.toList) := by
  rw [String.toList_append, String.toList_append, List.append_assoc]
  rfl

theorem append_star (array inner : String) :
    array ++ "." ++ ("*." ++ inner) = array ++ ".*." ++ inner := by
  rw [← String.toList_inj, toList_dot, toList_marker, String.toList_append]
  rfl

theorem append_marker_star (array inner : String) :
    array ++ ".*." ++ ("*." ++ inner) = array ++ ".*.*." ++ inner := by
  rw [← String.toList_inj, toList_marker, String.toList_append, String.toList_append,
    String.toList_append, List.append_assoc]
  rfl

theorem markers_dot (array inner : String) : markers (array ++ "." ++ inner) =
    starsAfter array.toList + starsBefore inner.toList := by
  rw [markers_eq, toList_dot, starsBetween_append_dot]

theorem markers_marker (array inner : String) : markers (array ++ ".*." ++ inner) =
    starsAfter array.toList + starsBefore inner.toList + 1 := by
  rw [markers_eq, toList_marker, starsBetween_marker]

theorem starsBefore_toList_star (inner : String) :
    starsBefore ("*." ++ inner).toList = starsBefore inner.toList + 1 := by
  rw [String.toList_append]
  exact starsBefore_star inner.toList

theorem columnTarget_of_one (harray : starsAfter array.toList = 0)
    (hinner : starsBetween inner.toList = 0) :
    columnTarget (array ++ ".*." ++ inner) = .ok (some array, array ++ "." ++ inner) := by
  have hlast : ¬marker <:+: inner.toList := by
    rw [infix_iff_starsBetween, hinner]
    exact Nat.lt_irrefl 0
  rw [columnTarget, toList_marker, markerParts_append (starsAfter_eq_zero.mpr harray),
    markerParts_of_not_infix hlast]
  simp

theorem columnTarget_of_more (harray : starsAfter array.toList = 0)
    (hinner : 0 < starsBetween inner.toList) :
    columnTarget (array ++ ".*." ++ inner) = .error (.unwindPath (array ++ ".*." ++ inner)) := by
  obtain ⟨a, b, hsplit, ha⟩ := exists_first_marker ((infix_iff_starsBetween _).mpr hinner)
  obtain ⟨part, more, hlast⟩ := List.exists_cons_of_ne_nil (markerParts_ne_nil b)
  rw [columnTarget, toList_marker, markerParts_append (starsAfter_eq_zero.mpr harray), hsplit,
    markerParts_append (starsAfter_eq_zero.mpr ha), hlast]

theorem columnTarget_of_doubled (h : markers (array ++ ".*.*." ++ inner) = 2) :
    columnTarget (array ++ ".*.*." ++ inner) = .ok (some array, array ++ ".*." ++ inner) := by
  rw [← append_marker_star, markers_marker, starsBefore_toList_star] at h
  have hinner : starsBetween ("*." ++ inner).toList = 0 + starsBefore inner.toList :=
    markers_eq ("*" ++ "." ++ inner) ▸ markers_dot "*" inner
  rw [← append_marker_star, columnTarget_of_one (by omega) (by omega), append_star]

end target

/-- The array that a column unwinds, if any, and the path of its values afterwards. -/
inductive Reached : String → Option String × String → Prop where
  | plain {column : String} (unmarked : markers column = 0) : Reached column (none, column)
  | unwound {array inner : String} (one : markers (array ++ ".*." ++ inner) = 1)
      (left : markers (array ++ "." ++ inner) = 0) :
      Reached (array ++ ".*." ++ inner) (some array, array ++ "." ++ inner)
  | doubled {array inner : String} (two : markers (array ++ ".*.*." ++ inner) = 2)
      (left : markers (array ++ ".*." ++ inner) = 1) :
      Reached (array ++ ".*.*." ++ inner) (some array, array ++ ".*." ++ inner)

def Refused (column : String) : Prop := 2 ≤ markers column ∧ ¬Doubled column

theorem not_refused_of_lt {column : String} (h : markers column < 2) : ¬Refused column :=
  fun hrefused => absurd hrefused.1 (Nat.not_le_of_lt h)

section refused

variable {array inner : String}

theorem refused_of_more (harray : starsAfter array.toList = 0)
    (hinner : 0 < starsBetween inner.toList) : Refused (array ++ ".*." ++ inner) := by
  have hmarkers := markers_marker array inner
  constructor
  · rcases starsBefore_cases inner.toList with hbefore | ⟨-, -, hbefore⟩ <;> omega
  · rintro ⟨htwo, array', inner', hdoubled⟩
    have hfound := columnTarget_of_more harray hinner
    rw [hdoubled] at htwo hfound
    rw [columnTarget_of_doubled htwo] at hfound
    cases hfound

theorem reached_of_one (harray : starsAfter array.toList = 0)
    (hinner : starsBetween inner.toList = 0) : ¬Refused (array ++ ".*." ++ inner) ∧
      Reached (array ++ ".*." ++ inner) (some array, array ++ "." ++ inner) := by
  have hmarkers := markers_marker array inner
  rcases starsBefore_cases inner.toList with hbefore | ⟨rest, hrest, hbefore⟩
  · refine ⟨not_refused_of_lt (by omega), .unwound (by omega) ?_⟩
    rw [markers_dot]
    omega
  · -- The star in front of what is left is the second marker.
    obtain rfl : inner = "*." ++ String.ofList rest := by
      simp [← String.toList_inj, hrest]
    rw [append_marker_star] at hmarkers ⊢
    rw [append_star]
    have htwo : markers (array ++ ".*.*." ++ String.ofList rest) = 2 := by omega
    refine ⟨fun hrefused => hrefused.2 ⟨htwo, array, _, rfl⟩, .doubled htwo ?_⟩
    rw [starsBefore_toList_star] at hmarkers
    rw [markers_marker]
    omega

end refused

theorem columnTarget_cases (column : String) :
    Refused column ∧ columnTarget column = .error (.unwindPath column) ∨
      ¬Refused column ∧ ∃ target, columnTarget column = .ok target ∧ Reached column target := by
  by_cases hmarker : marker <:+: column.toList
  · obtain ⟨a, b, hcolumn, ha⟩ := exists_first_marker hmarker
    obtain ⟨array, rfl⟩ : ∃ array : String, a = array.toList := ⟨_, String.toList_ofList.symm⟩
    obtain ⟨inner, rfl⟩ : ∃ inner : String, b = inner.toList := ⟨_, String.toList_ofList.symm⟩
    rw [← toList_marker, String.toList_inj] at hcolumn
    subst hcolumn
    rcases Nat.eq_zero_or_pos (starsBetween inner.toList) with hinner | hinner
    · obtain ⟨hrefused, hreached⟩ := reached_of_one ha hinner
      exact Or.inr ⟨hrefused, _, columnTarget_of_one ha hinner, hreached⟩
    · exact Or.inl ⟨refused_of_more ha hinner, columnTarget_of_more ha hinner⟩
  · have hnone : markers column = 0 := by
      rw [markers_eq]
      rw [infix_iff_starsBetween] at hmarker
      omega
    have hrefused : ¬Refused column := not_refused_of_lt (by omega)
    exact Or.inr ⟨hrefused, _, columnTarget_of_unmarked hmarker, .plain hnone⟩

theorem mapM_columnTarget_cases (columns : List String) :
    (∃ c ∈ columns, Refused c ∧ columns.mapM columnTarget = .error (.unwindPath c)) ∨
      (∀ c ∈ columns, ¬Refused c) ∧
        ∃ targets, columns.mapM columnTarget = .ok targets ∧ List.Forall₂ Reached columns targets := by
  induction columns with
  | nil => exact Or.inr ⟨by simp, [], rfl, .nil⟩
  | cons c rest ih =>
    rw [List.mapM_cons]
    rcases columnTarget_cases c with ⟨hrefused, herror⟩ | ⟨hc, target, hok, hreached⟩
    · refine Or.inl ⟨c, List.mem_cons_self, hrefused, ?_⟩
      rw [herror]
      rfl
    · rw [hok]
      rcases ih with ⟨c', hc', hrefused, herror⟩ | ⟨hrest, targets, htargets, hall⟩
      · refine Or.inl ⟨c', List.mem_cons_of_mem c hc', hrefused, ?_⟩
        rw [herror]
        rfl
      · refine Or.inr ⟨List.forall_mem_cons.mpr ⟨hc, hrest⟩, target :: targets, ?_, .cons hreached hall⟩
        rw [htargets]
        rfl

end Plan

theorem QueryError.bind_ne_error {α β : Type} {e : QueryError} {x : Except QueryError α}
    {f : α → Except QueryError β} (hx : x ≠ .error e) (hf : ∀ a, f a ≠ .error e) :
    x.bind f ≠ .error e := by
  cases x with
  | error e' =>
    rintro ⟨⟩
    exact hx rfl
  | ok a => exact hf a

namespace Scope

variable (s : Settings) {column : String}

theorem operand_ne_unwindPath (op : Operator) (v : Value) :
    operand op v ≠ .error (.unwindPath column) := by
  have hlike : Pattern.Like.regex v ≠ .error (.unwindPath column) := by
    unfold Pattern.Like.regex
    split <;> nofun
  have hdelimited : Pattern.Delimited.regex v ≠ .error (.unwindPath column) := by
    unfold Pattern.Delimited.regex
    split
    · nofun
    · split <;> nofun
    · nofun
  cases op with
  | like | notLike => exact hlike
  | regex | notRegex => exact hdelimited
  | _ => nofun

theorem compareFragment_ne_unwindPath (name operator : String) (l : Literal) (negated : Bool) :
    compareFragment s name operator l negated ≠ .error (.unwindPath column) := by
  have hparse : Operator.parse operator ≠ .error (.unwindPath column) := by
    unfold Operator.parse
    split <;> nofun
  exact QueryError.bind_ne_error hparse fun op =>
    QueryError.bind_ne_error (operand_ne_unwindPath op _) fun v => nofun

mutual

theorem fragment_ne_unwindPath : ∀ c : Condition, fragment s c ≠ .error (.unwindPath column)
  | .compare name operator l negated => compareFragment_ne_unwindPath s name operator l negated
  | .nested { clauses, .. } => by
    have hclauses := fragments_ne_unwindPath clauses
    rw [fragment]
    rcases hfs : fragments s clauses with e | fs
    · rintro ⟨⟩
      exact hclauses hfs
    · nofun
  | .oneOf _ _ | .noneOf _ _ | .null _ | .notNull _ | .between _ _ _ _ | .all _ _ | .raw _ => nofun

theorem fragments_ne_unwindPath : ∀ cs : List Clause,
    fragments s cs ≠ .error (.unwindPath column)
  | [] => nofun
  | ⟨_, c⟩ :: rest => QueryError.bind_ne_error (fragment_ne_unwindPath c) fun _ =>
      QueryError.bind_ne_error (fragments_ne_unwindPath rest) fun _ => nofun

end

theorem filter_ne_unwindPath (clauses : List Clause) :
    Scope.filter s clauses ≠ .error (.unwindPath column) := by
  have hfragments : fragments s clauses ≠ .error (.unwindPath column) :=
    fragments_ne_unwindPath s clauses
  rw [Scope.filter, compile]
  rcases hfs : fragments s clauses with e | fs
  · rintro ⟨⟩
    exact hfragments hfs
  · rintro ⟨⟩

end Scope

namespace Plan

variable (s : Settings) {p : Plan} {filter : Document}

theorem strategy_of_gathers (hfilter : Scope.filter s p.clauses = .ok filter)
    (hgathers : p.gathers = true) (hcount : p.countsAll = false) :
    p.strategy s = (p.aggregateColumns.mapM columnTarget).map fun targets =>
      .aggregate (p.orderedStages s filter targets ++ (cutStages p.skip p.limit ++ p.projectStages))
        (p.aggregateOptions s) := by
  rw [strategy, hfilter]
  change (if p.gathers then if p.countsAll then _ else (p.aggregateStages s filter).map _ else _) = _
  rw [if_pos hgathers, hcount, aggregateStages_eq]
  rcases p.aggregateColumns.mapM columnTarget with e | targets <;> rfl

theorem strategy_ne_unwindPath (hfilter : Scope.filter s p.clauses = .ok filter)
    (hgathers : p.gathers = false) (column : String) : p.strategy s ≠ .error (.unwindPath column) := by
  rw [strategy, hfilter]
  change (if p.gathers then _ else if p.distinct then _ else _) ≠ _
  rw [hgathers]
  cases p.distinct <;> rintro ⟨⟩

def laterStages (s : Settings) (p : Plan) : List Stage :=
  ((nonempty? (p.sortFields s)).map Stage.sort).toList ++
    (cutStages p.skip p.limit ++ p.projectStages)

theorem name_of_laterStages {stage : Stage} (h : stage ∈ p.laterStages s) :
    stage.name ∉ ["$match", "$unwind", "$group"] := by
  simp only [laterStages, cutStages, projectStages, List.mem_append, Option.mem_toList,
    Option.map_eq_some_iff] at h
  rcases h with ⟨_, -, rfl⟩ | (⟨_, -, rfl⟩ | ⟨_, -, rfl⟩) | ⟨_, -, rfl⟩ <;> simp [Stage.name]

theorem aggregateColumns_of_not_gathers (h : p.gathers = false) : p.aggregateColumns = [] := by
  rw [gathers, Bool.or_eq_false_iff, Option.isSome_eq_false_iff, Option.isNone_iff_eq_none] at h
  rw [aggregateColumns, h.2]
  rfl

theorem get?_groupSpecOn {a : Aggregate} {paths : List String} {path : String}
    (ha : p.aggregate = some a) (hfunction : a.function ≠ .count) (hpath : paths.getLast? = some path) :
    (p.groupSpecOn paths).get? aggregateField =
      some (.document [(a.function.accumulator, reference path)]) := by
  have hrule : aggregateRule a.function paths =
      some (.document [(a.function.accumulator, reference path)]) := by
    unfold aggregateRule
    rw [hpath]
    split <;> simp_all
  rw [groupSpecOn, ha, Option.bind_some, hrule]
  exact Document.get?_insert _ _ _

/-- A plan is refused for its markers exactly if one of its columns has several that are no two in a
row. Otherwise each column with a marker is unwound once, between the choice of documents and their
grouping, and the aggregate is of the last column where it is then found. -/
theorem unwound_columns (hcount : p.countsAll = false) :
    ((∃ c, p.strategy s = .error (.unwindPath c)) ↔
      (∃ filter, Scope.filter s p.clauses = .ok filter) ∧ ∃ c ∈ p.aggregateColumns, Refused c) ∧
    ∀ filter, Scope.filter s p.clauses = .ok filter → p.gathers = true →
      (∀ c ∈ p.aggregateColumns, ¬Refused c) →
      ∃ targets spec later, List.Forall₂ Reached p.aggregateColumns targets ∧
        p.strategy s = .ok (.aggregate (((nonempty? filter).map Stage.matching).toList ++
          (targets.filterMap Prod.fst).map .unwind ++ .group spec :: later) (p.aggregateOptions s)) ∧
        (∀ stage ∈ later, stage.name ∉ ["$match", "$unwind", "$group"]) ∧
        ∀ a path, p.aggregate = some a → a.function ≠ .count →
          (targets.map Prod.snd).getLast? = some path → spec.get? aggregateField =
            some (.document [(a.function.accumulator, reference path)]) := by
  constructor
  · rcases hfilter : Scope.filter s p.clauses with e | filter
    · refine iff_of_false ?_ (by simp)
      rintro ⟨c, hc⟩
      rw [strategy, hfilter] at hc
      cases hc
      exact Scope.filter_ne_unwindPath s p.clauses hfilter
    · rcases hgathers : p.gathers with _ | _
      · refine iff_of_false (not_exists.mpr (strategy_ne_unwindPath s hfilter hgathers)) ?_
        rintro ⟨-, c, hc, -⟩
        rw [aggregateColumns_of_not_gathers hgathers] at hc
        cases hc
      · rw [strategy_of_gathers s hfilter hgathers hcount]
        rcases mapM_columnTarget_cases p.aggregateColumns with
          ⟨c, hc, hrefused, herror⟩ | ⟨hnone, targets, htargets, -⟩
        · rw [herror]
          exact iff_of_true ⟨c, rfl⟩ ⟨⟨filter, rfl⟩, c, hc, hrefused⟩
        · rw [htargets]
          refine iff_of_false ?_ ?_
          · rintro ⟨c, ⟨⟩⟩
          · rintro ⟨-, c, hc, hrefused⟩
            exact hnone c hc hrefused
  · intro filter hfilter hgathers hnone
    rcases mapM_columnTarget_cases p.aggregateColumns with
      ⟨c, hc, hrefused, -⟩ | ⟨-, targets, htargets, hreached⟩
    · exact absurd hrefused (hnone c hc)
    · refine ⟨targets, p.groupSpecOn (targets.map Prod.snd), p.laterStages s, hreached, ?_,
        fun stage => name_of_laterStages s, fun a path => get?_groupSpecOn⟩
      rw [strategy_of_gathers s hfilter hgathers hcount, htargets]
      simp only [Except.map, orderedStages, laterStages, List.append_assoc, List.cons_append,
        List.nil_append]

theorem unwound_columns_cells :
    let p : Plan := { Plan.empty with
      clauses := [⟨.and, .compare "kind" "=" (.string "order") false⟩]
      groups := ["city"]
      aggregate := some ⟨.sum, ["items.*.price", "grid.*.*.cell"]⟩ }
    p.countsAll = false ∧ p.gathers = true ∧
      (¬∃ c, p.strategy .standard = .error (.unwindPath c)) ∧
      ∃ stages, p.strategy .standard = .ok (.aggregate stages (p.aggregateOptions .standard)) := by
  intro p
  have hnone : ∀ c ∈ p.aggregateColumns, ¬Refused c := by
    intro c hc hrefused
    rcases List.mem_pair.mp hc with rfl | rfl
    · exact absurd hrefused.1 (by decide)
    · exact hrefused.2 ⟨by decide, "grid", "cell", by decide⟩
  obtain ⟨hrefused, hplanned⟩ := unwound_columns .standard (p := p) rfl
  obtain ⟨targets, spec, later, -, hstrategy, -⟩ := hplanned _ rfl rfl hnone
  refine ⟨rfl, rfl, fun h => ?_, _, hstrategy⟩
  obtain ⟨-, c, hc, hc'⟩ := hrefused.mp h
  exact hnone c hc hc'

example : ({ Plan.empty with aggregate := some ⟨.sum, ["a.*.*.b"]⟩ } : Plan).strategy .standard =
    .ok (.aggregate [.unwind "a", .group [("_id", .null),
      ("aggregate", .document [("$sum", .string "$a.*.b")])]]
        [("typeMap", .document Settings.standard.typeMap)]) := rfl

end Plan

end RelDoc
