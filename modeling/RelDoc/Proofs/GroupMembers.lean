import RelDoc.Proofs.CountedRows
import RelDoc.Proofs.FirstOccurrences
import RelDoc.Proofs.GroupOrder

namespace RelDoc.Grouping

open Value

variable {key : Document → Value} {docs : List Document}

theorem place_map {ids : List Value} (hapart : ids.Pairwise fun a b => a.looseEq b = false)
    (members : Value → List Document) (k : Value) (d : Document) :
    place k d (ids.map fun id => (id, members id)) =
      if ids.any (·.looseEq k) then
        ids.map fun id => (id, members id ++ if id.looseEq k then [d] else [])
      else ids.map (fun id => (id, members id)) ++ [(k, [d])] := by
  induction ids with
  | nil => rfl
  | cons id rest ih =>
    obtain ⟨hid, hrest⟩ := List.pairwise_cons.mp hapart
    rw [List.map_cons, place, List.any_cons]
    rcases hk : id.looseEq k with _ | _
    · rw [ih hrest]
      by_cases hany : rest.any (·.looseEq k) = true <;> simp [hany, hk]
    · have hothers : ∀ other ∈ rest, other.looseEq k = false := by
        intro other hother
        rw [← looseEq_congr_right hk, looseEq_comm]
        exact hid other hother
      have hsame : (rest.map fun id => (id, members id ++ if id.looseEq k then [d] else [])) =
          rest.map fun id => (id, members id) := by
        apply List.map_congr_left
        intro other hother
        rw [hothers other hother]
        simp
      simp [hk, hsame]

theorem partition_eq_map (hkeys : ∀ d ∈ docs, (key d).isNanFree = true) :
    partition key docs = ((docs.map key).foldl Update.appendNew []).map fun id =>
      (id, docs.filter fun d => id.looseEq (key d)) := by
  induction docs using List.reverseRecOn with
  | nil => rfl
  | append_singleton docs d ih =>
    rw [List.forall_mem_append, List.forall_mem_singleton] at hkeys
    obtain ⟨hbefore, hd⟩ := hkeys
    have hfirst : FirstOfEach ((docs.map key).foldl Update.appendNew []) (docs.map key) := by
      apply firstOfEach_foldl
      simpa using hbefore
    rw [partition_concat, ih hbefore, place_map hfirst.apart, List.map_append, List.foldl_append]
    obtain ⟨ids, hids⟩ : ∃ ids, ids = (docs.map key).foldl Update.appendNew [] := ⟨_, rfl⟩
    rw [← hids] at hfirst ⊢
    change _ = (Update.appendNew ids (key d)).map _
    rw [Update.appendNew]
    split
    · simp [List.filter_append, List.filter_singleton]
    · rename_i hany
      have hnew : ∀ id ∈ ids, id.looseEq (key d) = false := by simpa using hany
      have hnone : docs.filter (fun e => (key d).looseEq (key e)) = [] := by
        rw [List.filter_eq_nil_iff]
        intro e he hde
        obtain ⟨id, hid, hide⟩ := hfirst.exists_looseEq (List.mem_map_of_mem he)
        exact absurd (looseEq_trans hide (looseEq_symm hde)) (by rw [hnew id hid]; decide)
      have hsame : (ids.map fun id => (id, docs.filter fun e => id.looseEq (key e))) =
          ids.map fun id => (id, (docs ++ [d]).filter fun e => id.looseEq (key e)) := by
        apply List.map_congr_left
        intro id hid
        simp [List.filter_append, hnew id hid]
      rw [List.map_append, List.map_singleton, List.filter_append, hnone, hsame]
      simp [looseEq_of_isNanFree hd]

structure Readable (spec : Document) (key : Value) : Prop where
  keys : spec.keys.Nodup
  id : spec.get? "_id" = some key
  accumulators : ∀ field ∈ spec, field.1 ≠ "_id" → ∃ r, rule field.1 field.2 = .ok r

structure Counts (spec : Document) (id : Value) (members : List Document) (row : Document) : Prop where
  keys : row.keys = "_id" :: spec.keys.filter (· ≠ "_id")
  id : row.get? "_id" = some id
  accumulated : ∀ name op e more, (name, Value.document ((op, e) :: more)) ∈ spec → name ≠ "_id" →
    ∃ start, Accumulator.initial op = .ok start ∧
      row.get? name = some ((members.map (evaluate · e)).foldl Accumulator.feed start).finish

theorem Rule.result_eq {r : Rule} {start : Accumulator} (h : Accumulator.initial r.op = .ok start)
    (docs : List Document) : r.result docs =
      ((docs.map (evaluate · r.expression)).foldl Accumulator.feed start).finish := by
  rw [Rule.result, h, List.foldl_map]

theorem counts_row {spec : Document} {rs : List Rule} (hkeys : spec.keys.Nodup)
    (hnames : rs.map Rule.name = spec.keys.filter (· ≠ "_id"))
    (hrules : ∀ field ∈ spec, field.1 ≠ "_id" → ∃ r ∈ rs, rule field.1 field.2 = .ok r)
    (id : Value) (members : List Document) : Counts spec id members (row rs (id, members)) := by
  have hnodup : ("_id" :: rs.map Rule.name).Nodup := by
    rw [hnames, List.nodup_cons]
    exact ⟨by simp, hkeys.filter _⟩
  have hrow := row_of_nodup hnodup (id, members)
  have hrowkeys : (row rs (id, members)).keys = "_id" :: rs.map Rule.name := by
    rw [hrow, Document.keys, List.map_cons, List.map_map]
    rfl
  refine ⟨by rw [hrowkeys, hnames], by rw [hrow]; rfl, ?_⟩
  intro name op e more hfield hname
  obtain ⟨r, hr, hrule⟩ := hrules _ hfield hname
  obtain ⟨op', e', more', start, heq, hstart, rfl⟩ := rule_eq_ok hrule
  cases heq
  refine ⟨start, hstart, ?_⟩
  rw [← Rule.result_eq (r := ⟨name, op, e⟩) hstart]
  apply Document.get?_of_mem (by rwa [hrowkeys])
  rw [hrow]
  exact List.mem_cons_of_mem _ (List.mem_map.mpr ⟨_, hr, rfl⟩)

theorem Counts.get?_sum {spec row : Document} {id : Value} {members : List Document}
    (h : Counts spec id members row) {name : String} {more : List (String × Value)}
    (hfield : (name, .document (("$sum", .int32 1) :: more)) ∈ spec) (hname : name ≠ "_id")
    (hfew : members.length ≤ 2 ^ 53) :
    row.get? name = some (.int64 (.ofInt members.length)) := by
  obtain ⟨start, hstart, hvalue⟩ := h.accumulated name _ _ more hfield hname
  obtain rfl : Accumulator.sum 0.0 true = start := Except.ok.inj hstart
  rw [hvalue, List.foldl_map, (sums_ones members hfew).finish (by omega)]

variable {spec : Document} {keyOf : Value}

theorem group_members (hspec : Readable spec keyOf)
    (hkeys : ∀ d ∈ docs, (evaluate d keyOf).isNanFree = true) :
    let members (id : Value) := docs.filter fun d => id.looseEq (evaluate d keyOf)
    ∃ ids rows, group spec docs = .ok rows ∧ FirstOfEach ids (docs.map (evaluate · keyOf)) ∧
      List.Forall₂ (fun id row => Counts spec id (members id) row) ids rows ∧
      (ids.flatMap members).Perm docs ∧
      (docs.length < 2 ^ 53 → ∀ name more,
        (name, .document (("$sum", .int32 1) :: more)) ∈ spec → name ≠ "_id" →
          ∃ counts : List Nat, counts.sum = docs.length ∧
            rows.map (·.get? name) = counts.map fun n => some (.int64 (.ofInt n))) := by
  intro members
  obtain ⟨rs, hrules, hnames, hmem⟩ := rules_forall hspec.accumulators
  obtain ⟨ids, hids⟩ : ∃ ids, ids =
    (docs.map (evaluate · keyOf)).foldl Update.appendNew [] := ⟨_, rfl⟩
  have hpartition : partition (evaluate · keyOf) docs = ids.map fun id => (id, members id) := by
    rw [partition_eq_map hkeys, hids]
  have hperm : (ids.flatMap members).Perm docs := by
    have hparts := (partition_partitions (evaluate · keyOf) docs).perm
    rw [hpartition, List.map_map] at hparts
    exact hparts
  have hcounts (id : Value) : Counts spec id (members id) (row rs (id, members id)) :=
    counts_row hspec.keys hnames hmem id (members id)
  refine ⟨ids, ids.map fun id => row rs (id, members id), ?_, ?_, ?_, hperm, ?_⟩
  · rw [group, hspec.id]
    simp only [hrules, hpartition, Except.map, List.map_map]
    rfl
  · rw [hids]
    apply firstOfEach_foldl
    simpa using hkeys
  · rw [List.forall₂_map_right_iff, List.forall₂_same]
    exact fun id _ => hcounts id
  · intro hfew name more hfield hname
    refine ⟨ids.map fun id => (members id).length, ?_, ?_⟩
    · rw [← hperm.length_eq, List.length_flatMap]
    · rw [List.map_map, List.map_map]
      apply List.map_congr_left
      intro id _
      have hle : (members id).length ≤ docs.length := List.length_filter_le _ _
      exact (hcounts id).get?_sum hfield hname (by omega)

theorem group_members_floors :
    let flat (floor : Value) (name : String) : Document :=
      [("floor", floor), ("name", .string name)]
    let docs := [flat (.int32 1) "Ada", flat .null "Bob", flat (.int64 1) "Eve"]
    let spec : Document := [("_id", .string "$floor"), ("n", .document [("$sum", .int32 1)]),
      ("last", .document [("$last", .string "$name")])]
    Readable spec (.string "$floor") ∧
      (∀ d ∈ docs, (evaluate d (.string "$floor")).isNanFree = true) ∧
      ∃ rows, group spec docs = .ok rows ∧
        rows.map (·.get? "_id") = [some (.int32 1), some .null] ∧
        ∃ counts : List Nat, counts.sum = 3 ∧
          rows.map (·.get? "n") = counts.map fun n => some (.int64 (.ofInt n)) := by
  intro flat docs spec
  have hspec : Readable spec (.string "$floor") := by
    refine ⟨by decide, rfl, ?_⟩
    simp only [spec, List.forall_mem_cons]
    exact ⟨fun hid => absurd rfl hid, fun _ => ⟨_, rfl⟩, fun _ => ⟨_, rfl⟩, by simp⟩
  have hkeys : ∀ d ∈ docs, (evaluate d (.string "$floor")).isNanFree = true := by decide
  obtain ⟨ids, rows, hrows, -, -, -, hsum⟩ := group_members hspec hkeys
  have hids : (group spec docs).map (List.map (·.get? "_id")) =
      .ok [some (.int32 1), some .null] := rfl
  rw [hrows] at hids
  exact ⟨hspec, hkeys, rows, hrows, Except.ok.inj hids,
    hsum (by decide) "n" [] (by simp [spec]) (by decide)⟩

end RelDoc.Grouping
