import RelDoc.Proofs.MergedFragments

namespace RelDoc.Scope

/-- How clauses are joined in the end: the first of several, when joined by `and`, as the second. -/
def effectiveJoins : List Join → List Join
  | .and :: join :: rest => join :: join :: rest
  | joins => joins

mutual

def leaves : Condition → List Condition
  | .nested { clauses, .. } => allLeaves clauses
  | c => [c]
termination_by structural c => c

def allLeaves : List Clause → List Condition
  | [] => []
  | ⟨_, c⟩ :: rest => leaves c ++ allLeaves rest
termination_by structural clauses => clauses

end

def passesAlone (s : Settings) (doc : Document) (c : Condition) : Bool :=
  match fragment s c with
  | .ok f => Filter.passes doc f
  | .error _ => false

mutual

def meets (s : Settings) (doc : Document) : Condition → Bool
  | .nested { clauses, .. } =>
    verdict ((effectiveJoins (clauses.map Clause.join)).zip (meetsEach s doc clauses))
  | c => passesAlone s doc c
termination_by structural c => c

def meetsEach (s : Settings) (doc : Document) : List Clause → List Bool
  | [] => []
  | ⟨_, c⟩ :: rest => meets s doc c :: meetsEach s doc rest
termination_by structural clauses => clauses

end

def reading (s : Settings) (doc : Document) (clauses : List Clause) : Bool :=
  verdict ((effectiveJoins (clauses.map Clause.join)).zip (meetsEach s doc clauses))

/-- Filters that callers wrote themselves have every key once. -/
def RawKeysDistinct (clauses : List Clause) : Prop :=
  ∀ f, .raw f ∈ allLeaves clauses → f.keys.Nodup

def LeavesEvaluate (s : Settings) (doc : Document) (clauses : List Clause) : Prop :=
  ∀ c ∈ allLeaves clauses, ∀ f, fragment s c = .ok f → Filter.Evaluates doc f

theorem fragments_nil {s : Settings} {fs : List Fragment} : fragments s [] = .ok fs ↔ fs = [] := by
  rw [fragments, Except.ok.injEq, eq_comm]

theorem fragments_cons {s : Settings} {clause : Clause} {rest : List Clause} {fs : List Fragment} :
    fragments s (clause :: rest) = .ok fs ↔
      ∃ f more, fragment s clause.condition = .ok f ∧ fragments s rest = .ok more ∧
        fs = (clause.join, f) :: more := by
  obtain ⟨join, c⟩ := clause
  rw [fragments]
  rcases fragment s c with e | f
  · simp [bind, Except.bind]
  · rcases fragments s rest with e | more
    · simp [bind, Except.bind]
    · simp [bind, Except.bind, pure, Except.pure, eq_comm]

theorem compareFragment_eq_ok {s : Settings} {column operator : String} {l : Literal}
    {negated : Bool} {f : Document} :
    compareFragment s column operator l negated = .ok f ↔
      ∃ op v, Operator.parse operator = .ok op ∧ operand op (prepare s column l) = .ok v ∧
        f = under column (compareWith op negated v) := by
  unfold compareFragment
  rcases Operator.parse operator with e | op
  · simp [bind, Except.bind]
  · rcases hv : operand op (prepare s column l) with e | v
    · simp [bind, Except.bind, hv]
    · simp [bind, Except.bind, pure, Except.pure, hv, eq_comm]

theorem filter_eq_ok {s : Settings} {clauses : List Clause} {f : Document} :
    filter s clauses = .ok f ↔
      ∃ fs, fragments s clauses = .ok fs ∧ f = (assemble fs).toDocument := by
  unfold filter compile
  rcases fragments s clauses with e | fs
  · simp [Except.map]
  · simp [Except.map, eq_comm]

theorem nodup_keys_assemble (fs : List Fragment) : (assemble fs).toDocument.keys.Nodup := by
  rw [Constraints.keys_toDocument]
  have hfold : ∀ (gs : List Fragment) (cs : Constraints), (cs.map Prod.fst).Nodup →
      ((gs.foldl (fun cs f => Constraints.merge cs (wrap f)) cs).map Prod.fst).Nodup := by
    intro gs
    induction gs with
    | nil => exact fun cs h => h
    | cons g rest ih => exact fun cs h => ih _ (Constraints.nodup_keys_merge h _)
  rw [assemble.eq_def]
  split
  · exact Constraints.nodup_keys_merge (by simp) _
  · exact hfold _ _ (by simp)

theorem nodup_keys_fragment {s : Settings} {c : Condition} {f : Document}
    (h : fragment s c = .ok f) (hraw : ∀ g, c = .raw g → g.keys.Nodup) : f.keys.Nodup := by
  cases c with
  | nested p =>
    rw [fragment_nested, filter_eq_ok] at h
    obtain ⟨fs, -, rfl⟩ := h
    exact nodup_keys_assemble fs
  | raw g =>
    obtain rfl : g = f := by simpa [fragment] using h
    exact hraw g rfl
  | compare column operator l negated =>
    rw [fragment, compareFragment_eq_ok] at h
    obtain ⟨op, v, -, -, rfl⟩ := h
    simp [under, Document.keys]
  | between column low high negated =>
    simp only [fragment, Except.ok.injEq] at h
    subst h
    cases negated <;> simp [betweenFragment, under, Document.keys]
  | _ =>
    simp only [fragment, Except.ok.injEq] at h
    subst h
    simp [under, Document.keys]

variable {s : Settings} {doc : Document}

theorem mem_fragments {clauses : List Clause} {fs : List Fragment}
    (h : fragments s clauses = .ok fs) {f : Fragment} (hf : f ∈ fs) :
    ∃ clause ∈ clauses, clause.join = f.1 ∧ fragment s clause.condition = .ok f.2 := by
  induction clauses generalizing fs with
  | nil =>
    obtain rfl := fragments_nil.mp h
    simp at hf
  | cons clause rest ih =>
    obtain ⟨g, more, hg, hrest, rfl⟩ := fragments_cons.mp h
    rcases List.mem_cons.mp hf with rfl | hf
    · exact ⟨clause, by simp, rfl, hg⟩
    · obtain ⟨c, hc, hjoin, hfragment⟩ := ih hrest hf
      exact ⟨c, List.mem_cons_of_mem _ hc, hjoin, hfragment⟩

theorem exists_fragment {clauses : List Clause} {fs : List Fragment}
    (h : fragments s clauses = .ok fs) {clause : Clause} (hclause : clause ∈ clauses) :
    ∃ f, fragment s clause.condition = .ok f := by
  induction clauses generalizing fs with
  | nil => cases hclause
  | cons first rest ih =>
    obtain ⟨f, more, hf, hmore, -⟩ := fragments_cons.mp h
    rcases List.mem_cons.mp hclause with rfl | hclause
    · exact ⟨f, hf⟩
    · exact ih hmore hclause

theorem mem_allLeaves {clauses : List Clause} {clause : Clause} (h : clause ∈ clauses)
    {l : Condition} (hl : l ∈ leaves clause.condition) : l ∈ allLeaves clauses := by
  induction clauses with
  | nil => simp at h
  | cons first rest ih =>
    obtain ⟨join, c⟩ := first
    rw [allLeaves, List.mem_append]
    rcases List.mem_cons.mp h with rfl | h
    · exact Or.inl hl
    · exact Or.inr (ih h)

theorem nodup_keys_fragments {clauses : List Clause} {fs : List Fragment}
    (h : fragments s clauses = .ok fs) (hraw : RawKeysDistinct clauses) :
    ∀ f ∈ fs, f.2.keys.Nodup := by
  intro f hf
  obtain ⟨clause, hclause, -, hfragment⟩ := mem_fragments h hf
  apply nodup_keys_fragment hfragment
  intro g hg
  apply hraw g
  apply mem_allLeaves hclause
  simp [hg, leaves]

theorem map_fst_rejoined (fs : List Fragment) :
    (rejoined fs).map Prod.fst = effectiveJoins (fs.map Prod.fst) := by
  rcases fs with _ | ⟨⟨_ | _, f⟩, _ | ⟨⟨join, g⟩, rest⟩⟩ <;> rfl

theorem truths_rejoined (fs : List Fragment) :
    truths doc (rejoined fs) = (effectiveJoins (fs.map Prod.fst)).zip
      (fs.map fun f => Filter.passes doc f.2) := by
  have hsnd : (fs.map fun f => Filter.passes doc f.2) =
      (rejoined fs).map fun f => Filter.passes doc f.2 := by
    have h := congrArg (List.map (Filter.passes doc)) (map_snd_rejoined fs)
    simpa only [List.map_map, Function.comp_def] using h.symm
  rw [hsnd, ← map_fst_rejoined, List.zip_map', truths]

mutual

theorem holds_fragment : ∀ (c : Condition) {f : Document}, fragment s c = .ok f →
    (∀ g, .raw g ∈ leaves c → g.keys.Nodup) →
    (∀ l ∈ leaves c, ∀ g, fragment s l = .ok g → Filter.Evaluates doc g) →
    Filter.holds doc f = .ok (meets s doc c)
  | .nested { clauses, .. }, f, hf, hraw, hl => by
    rw [fragment_nested, filter_eq_ok] at hf
    obtain ⟨fs, hfs, rfl⟩ := hf
    obtain ⟨hall, hjoins, hvalues⟩ := passes_fragments clauses hfs hraw hl
    rw [meets, holds_assemble (nodup_keys_fragments hfs hraw) hall, truths_rejoined, hjoins, hvalues]
  | .compare _ _ _ _, f, hf, _, hl | .oneOf _ _, f, hf, _, hl | .noneOf _ _, f, hf, _, hl
  | .null _, f, hf, _, hl | .notNull _, f, hf, _, hl | .between _ _ _ _, f, hf, _, hl
  | .all _ _, f, hf, _, hl | .raw _, f, hf, _, hl => by
    have h := Filter.holds_eq_passes doc (hl _ (by simp [leaves]) f hf)
    simpa only [meets, passesAlone, hf] using h

theorem passes_fragments : ∀ (clauses : List Clause) {fs : List Fragment},
    fragments s clauses = .ok fs → RawKeysDistinct clauses → LeavesEvaluate s doc clauses →
    (∀ f ∈ fs, Filter.Evaluates doc f.2) ∧ fs.map Prod.fst = clauses.map Clause.join ∧
      (fs.map fun f => Filter.passes doc f.2) = meetsEach s doc clauses
  | [], fs, hf, _, _ => by
    obtain rfl := fragments_nil.mp hf
    simp [meetsEach]
  | ⟨join, c⟩ :: rest, fs, hf, hraw, hl => by
    obtain ⟨f, more, hc, hrest, rfl⟩ := fragments_cons.mp hf
    have hv := holds_fragment c hc (fun g hg => hraw g (by simp [allLeaves, hg]))
      (fun l hm => hl l (by simp [allLeaves, hm]))
    obtain ⟨hall, hjoins, hvalues⟩ := passes_fragments rest hrest
      (fun g hg => hraw g (by simp [allLeaves, hg])) (fun l hm => hl l (by simp [allLeaves, hm]))
    refine ⟨List.forall_mem_cons.mpr ⟨⟨_, hv⟩, hall⟩, by simp [hjoins], ?_⟩
    rw [List.map_cons, hvalues, meetsEach, Filter.passes_of_holds doc hv]

end

/-- The filter of a list of clauses has the truth value of their reading on every document on which
the filters of the single clauses have one. -/
theorem holds_filter_eq_reading {clauses : List Clause} {f : Document}
    (hf : filter s clauses = .ok f) (hraw : RawKeysDistinct clauses)
    (hl : LeavesEvaluate s doc clauses) :
    Filter.holds doc f = .ok (reading s doc clauses) := by
  obtain ⟨fs, hfs, rfl⟩ := filter_eq_ok.mp hf
  obtain ⟨hall, hjoins, hvalues⟩ := passes_fragments clauses hfs hraw hl
  rw [holds_assemble (nodup_keys_fragments hfs hraw) hall, truths_rejoined, hjoins, hvalues, reading]

theorem holds_filter_eq_reading_group :
    let clauses : List Clause := [⟨.and, .compare "city" "=" (.string "Paris") false⟩,
      ⟨.or, .nested { Plan.empty with
        clauses := [⟨.and, .null "city"⟩, ⟨.and, .raw [("name", .string "Ada")]⟩] }⟩]
    let doc : Document := [("name", .string "Ada")]
    ∃ f, filter .standard clauses = .ok f ∧ RawKeysDistinct clauses ∧
      LeavesEvaluate .standard doc clauses ∧ Filter.holds doc f = .ok true := by
  intro clauses doc
  have hraw : RawKeysDistinct clauses := by
    simp [clauses, RawKeysDistinct, allLeaves, leaves, Document.keys]
  have hl : LeavesEvaluate .standard doc clauses := by
    intro c hc f hf
    simp only [clauses, allLeaves, leaves, List.cons_append, List.nil_append, List.append_nil,
      List.mem_cons, List.not_mem_nil, or_false] at hc
    rcases hc with rfl | rfl | rfl <;> cases hf <;> exact ⟨_, rfl⟩
  exact ⟨_, rfl, hraw, hl, holds_filter_eq_reading rfl hraw hl⟩

end RelDoc.Scope
