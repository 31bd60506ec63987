import RelDoc.Proofs.ScopeNarrowing

namespace RelDoc.Scope

inductive Alone (n : Document) : List Clause → Prop
  | raw : Alone n [⟨.and, .raw n⟩]
  | group (p : Plan) (h : Alone n p.clauses) : Alone n [⟨.and, .nested p⟩]

def listForm (n : Document) : Document :=
  n.map fun field => (field.1, (Constraint.ofField field.1 field.2).toValue)

def WritesLists (n : Document) : Prop :=
  ∀ field ∈ n, field.1 = "$and" ∨ field.1 = "$or" → ∃ items, field.2 = .array items

variable {s : Settings} {n : Document}

theorem toValue_ofField_eq_iff {key : String} {v : Value} :
    (Constraint.ofField key v).toValue = v ↔
      (key = "$and" ∨ key = "$or" → ∃ items, v = .array items) := by
  rw [Constraint.ofField]
  split
  · rename_i hkey
    simp only [Constraint.toValue, hkey, true_imp_iff]
    cases v <;> simp [Value.asArray?]
  · rename_i hkey
    exact iff_of_true rfl fun h => absurd h hkey

theorem listForm_eq_self_iff : listForm n = n ↔ WritesLists n := by
  induction n with
  | nil => simp [listForm, WritesLists]
  | cons field rest ih =>
    rw [listForm, List.map_cons, List.cons.injEq, Prod.ext_iff]
    rw [WritesLists, List.forall_mem_cons, ← toValue_ofField_eq_iff]
    exact and_congr (and_iff_right rfl) ih

theorem keys_listForm (n : Document) : (listForm n).keys = n.keys := by
  simp [listForm, Document.keys]

theorem writesLists_listForm (n : Document) : WritesLists (listForm n) := by
  intro field hfield hkey
  obtain ⟨⟨key, v⟩, -, rfl⟩ := List.mem_map.mp hfield
  exact ⟨_, by rw [Constraint.ofField, if_pos hkey]; rfl⟩

theorem filter_alone (hn : n.keys.Nodup) {clauses : List Clause} (h : Alone n clauses) :
    filter s clauses = .ok (listForm n) := by
  induction h with
  | raw => exact filter_eq_ok.mpr ⟨[(.and, n)], rfl, (toDocument_merge_nil hn).symm⟩
  | group p _ ih =>
    -- What the parentheses hold has its lists written as lists, and does not change any more.
    have hfragment : fragment s (.nested p) = .ok (listForm n) := by rw [fragment_nested, ih]
    have hfragments : fragments s [⟨.and, .nested p⟩] = .ok [(.and, listForm n)] :=
      fragments_cons.mpr ⟨listForm n, [], hfragment, fragments_nil.mpr rfl, rfl⟩
    have hkeys : (listForm n).keys.Nodup := by rwa [keys_listForm]
    have hagain : listForm (listForm n) = listForm n :=
      listForm_eq_self_iff.mpr (writesLists_listForm n)
    exact filter_eq_ok.mpr ⟨_, hfragments, ((toDocument_merge_nil hkeys).trans hagain).symm⟩

theorem exists_rejoined {fs gs : List Fragment} (hne : fs ++ gs ≠ []) (join : Join) :
    ∃ j fs' gs', ∀ n, rejoined (fs ++ (join, n) :: gs) = fs' ++ (j, n) :: gs' := by
  rcases fs with _ | ⟨⟨_ | _, f⟩, _ | ⟨⟨k, g⟩, rest⟩⟩
  · rcases gs with _ | ⟨⟨k, g⟩, rest⟩
    · exact absurd rfl hne
    · cases join with
      | and => exact ⟨k, [], (k, g) :: rest, fun _ => rfl⟩
      | or => exact ⟨.or, [], (k, g) :: rest, fun _ => rfl⟩
  · exact ⟨join, [(join, f)], gs, fun _ => rfl⟩
  · exact ⟨join, (k, f) :: (k, g) :: rest, gs, fun _ => rfl⟩
  · exact ⟨join, [(.or, f)], gs, fun _ => rfl⟩
  · exact ⟨join, (.or, f) :: (k, g) :: rest, gs, fun _ => rfl⟩

theorem collected_insert (join : Join) (fs gs : List Fragment) (n : Document) :
    collected join (fs ++ (join, n) :: gs) = collected join fs ++ n :: collected join gs := by
  simp [collected]

theorem collected_insert_of_ne {join j : Join} (h : j ≠ join) (fs gs : List Fragment) (n : Document) :
    collected join (fs ++ (j, n) :: gs) = collected join (fs ++ gs) := by
  simp [collected, h]

theorem toDocument_listed_insert (join : Join) (fs gs : List Fragment) (n : Document) :
    (listed join (fs ++ (join, n) :: gs)).toDocument = [(listKey join, .array
      ((collected join fs).map .document ++ .document n :: (collected join gs).map .document))] := by
  rw [toDocument_listed, collected_insert, if_neg (by simp), List.map_append, List.map_cons]

theorem toDocument_lists_insert (fs gs : List Fragment) (j : Join) :
    ∃ pre front back post, ∀ n, (lists (fs ++ (j, n) :: gs)).toDocument =
      pre ++ (listKey j, .array (front ++ .document n :: back)) :: post := by
  have hother (n : Document) : listed (otherJoin j) (fs ++ (j, n) :: gs) =
      listed (otherJoin j) (fs ++ gs) := by
    rw [listed, collected_insert_of_ne (Ne.symm (otherJoin_ne j)), ← listed]
  -- The join of the first fragment decides which of the two lists comes first.
  have hfirst : (∀ n, lists (fs ++ (j, n) :: gs) =
        listed j (fs ++ (j, n) :: gs) ++ listed (otherJoin j) (fs ++ (j, n) :: gs)) ∨
      ∀ n, lists (fs ++ (j, n) :: gs) =
        listed (otherJoin j) (fs ++ (j, n) :: gs) ++ listed j (fs ++ (j, n) :: gs) := by
    rcases fs with _ | ⟨⟨k, f⟩, rest⟩
    · exact Or.inl fun _ => rfl
    · cases k <;> cases j
      · exact Or.inl fun _ => rfl
      · exact Or.inr fun _ => rfl
      · exact Or.inr fun _ => rfl
      · exact Or.inl fun _ => rfl
  let front := (collected j fs).map Value.document
  let back := (collected j gs).map Value.document
  let other := (listed (otherJoin j) (fs ++ gs)).toDocument
  rcases hfirst with hfirst | hfirst
  · refine ⟨[], front, back, other, fun n => ?_⟩
    rw [hfirst, toDocument_append, toDocument_listed_insert, hother]
    rfl
  · refine ⟨other, front, back, [], fun n => ?_⟩
    rw [hfirst, toDocument_append, toDocument_listed_insert, hother]

theorem length_fragments {clauses : List Clause} {fs : List Fragment}
    (h : fragments s clauses = .ok fs) : fs.length = clauses.length := by
  induction clauses generalizing fs with
  | nil =>
    rw [fragments_nil.mp h]
    rfl
  | cons clause rest ih =>
    obtain ⟨f, more, -, hrest, rfl⟩ := fragments_cons.mp h
    rw [List.length_cons, List.length_cons, ih hrest]

theorem filter_among {before after : List Clause} (hne : before ++ after ≠ []) {g : Document}
    (hothers : filter s (before ++ after) = .ok g) (join : Join) :
    ∃ j pre front back post, ∀ n, filter s (before ++ ⟨join, .raw n⟩ :: after) =
      .ok (pre ++ (listKey j, .array (front ++ .document n :: back)) :: post) := by
  obtain ⟨hs, hhs, -⟩ := filter_eq_ok.mp hothers
  obtain ⟨fs, gs, hfs, hgs, rfl⟩ := fragments_of_append hhs
  have hmore : fs ++ gs ≠ [] := by
    rwa [← List.length_pos_iff, length_fragments hhs, List.length_pos_iff]
  have hfragments (n : Document) : fragments s (before ++ ⟨join, .raw n⟩ :: after) =
      .ok (fs ++ (join, n) :: gs) :=
    fragments_append hfs (fragments_cons.mpr ⟨n, gs, by rw [fragment], hgs, rfl⟩)
  obtain ⟨j, fs', gs', hrejoined⟩ := exists_rejoined hmore join
  obtain ⟨pre, front, back, post, hlists⟩ := toDocument_lists_insert fs' gs' j
  refine ⟨j, pre, front, back, post, fun n => filter_eq_ok.mpr ⟨_, hfragments n, ?_⟩⟩
  rw [assemble_insert hmore, hrejoined, hlists]

/-- A filter of the caller that is the only clause keeps its keys and their order, and is as the caller
wrote it exactly if what it has under `$and` and `$or` are lists. Among other clauses it is an entry of
one list as it is, and is found nowhere else. -/
theorem raw_verbatim_iff (s : Settings) :
    (∀ n clauses, n.keys.Nodup → Alone n clauses → ∃ f, filter s clauses = .ok f ∧
      f = listForm n ∧ f.keys = n.keys ∧ (f = n ↔ WritesLists n)) ∧
    ∀ before after join g, before ++ after ≠ [] → filter s (before ++ after) = .ok g →
      ∃ j pre front back post, ∀ n, filter s (before ++ ⟨join, .raw n⟩ :: after) =
        .ok (pre ++ (listKey j, .array (front ++ .document n :: back)) :: post) := by
  constructor
  · intro n clauses hn halone
    exact ⟨listForm n, filter_alone hn halone, rfl, keys_listForm n, listForm_eq_self_iff⟩
  · intro before after join g hne hothers
    exact filter_among hne hothers join

theorem raw_verbatim_iff_single :
    let n : Document := [("$and", .document [("a", .int32 1)]), ("b", .null)]
    let group : List Clause := [⟨.and, .nested { Plan.empty with clauses := [⟨.and, .raw n⟩] }⟩]
    let first : Clause := ⟨.and, .compare "x" "=" (.integer 1) false⟩
    n.keys.Nodup ∧ Alone n group ∧ filter .standard group =
        .ok [("$and", .array [.document [("a", .int32 1)]]), ("b", .null)] ∧
      filter .standard group ≠ .ok n ∧ filter .standard [first] = .ok [("x", .int32 1)] ∧
      ∃ j pre front back post, filter .standard [first, ⟨.and, .raw n⟩] =
        .ok (pre ++ (listKey j, .array (front ++ .document n :: back)) :: post) := by
  intro n group first
  have hn : n.keys.Nodup := by decide
  have halone : Alone n group := .group _ .raw
  have hwrites : ¬WritesLists n := by
    intro h
    obtain ⟨items, hitems⟩ := h _ List.mem_cons_self (Or.inl rfl)
    cases hitems
  have hfirst : filter .standard ([first] ++ []) = .ok [("x", .int32 1)] := rfl
  obtain ⟨hsingle, hlist⟩ := raw_verbatim_iff .standard
  obtain ⟨f, hf, rfl, -, hsame⟩ := hsingle n group hn halone
  obtain ⟨j, pre, front, back, post, hall⟩ := hlist [first] [] .and _ (by simp) hfirst
  refine ⟨hn, halone, hf, fun h => ?_, hfirst, j, pre, front, back, post, hall n⟩
  rw [hf] at h
  exact hwrites (hsame.mp (Except.ok.inj h))

end RelDoc.Scope
