import RelDoc.Proofs.RequestedOrder
import RelDoc.Proofs.UnwoundArrays

namespace RelDoc

open Grouping

namespace Value

variable {a a' b b' : Value}

theorem order_congr_left (ha : a.isSortable = true) (ha' : a'.isSortable = true)
    (hb : b.isSortable = true) (h : a.looseEq a' = true) : a.order b = a'.order b := by
  have heq : a.order a' = .eq := (order_eq_iff ha ha').mpr h
  rcases hord : a'.order b with _ | _ | _
  · rw [order_chained ha ha' hb (by rw [heq]; decide) (by rw [hord]; decide), heq, hord]
    rfl
  · rw [order_chained ha ha' hb (by rw [heq]; decide) (by rw [hord]; decide), heq, hord]
    rfl
  · have hback : b.order a' = .lt := by
      rw [order_swap ha' hb, hord]
      rfl
    have heq' : a'.order a = .eq := by
      rw [order_swap ha ha', heq]
      rfl
    rw [order_swap hb ha, order_chained hb ha' ha (by rw [hback]; decide) (by rw [heq']; decide), hback]
    rfl

theorem order_congr (ha : a.isSortable = true) (ha' : a'.isSortable = true) (hb : b.isSortable = true)
    (hb' : b'.isSortable = true) (haa' : a.looseEq a' = true) (hbb' : b.looseEq b' = true) :
    a.order b = a'.order b' := by
  rw [order_congr_left ha ha' hb haa', order_swap hb ha', order_congr_left hb hb' ha' hbb',
    ← order_swap hb' ha']

end Value

theorem Direction.order_congr {direction : Direction} {a a' b b' : Value} (ha : a.isSortable = true)
    (ha' : a'.isSortable = true) (hb : b.isSortable = true) (hb' : b'.isSortable = true)
    (haa' : a.looseEq a' = true) (hbb' : b.looseEq b' = true) :
    direction.order a b = direction.order a' b' := by
  cases direction with
  | ascending => exact Value.order_congr ha ha' hb hb' haa' hbb'
  | descending => exact Value.order_congr hb hb' ha ha' hbb' haa'

def Path.root (path : String) : String := (segments path).headD ""

theorem Path.segments_eq (path : String) : segments path = root path :: (segments path).tail := by
  rw [root]
  rcases hsegments : segments path with _ | ⟨first, rest⟩
  · exact absurd hsegments (segments_ne_nil path)
  · rfl

theorem Path.not_mem_of_mem_pieces {cs piece : List Char} (h : piece ∈ pieces cs) : '.' ∉ piece := by
  induction cs generalizing piece with
  | nil =>
    obtain rfl := List.mem_singleton.mp h
    exact List.not_mem_nil
  | cons c rest ih =>
    rw [pieces] at h
    split at h
    · rcases List.mem_cons.mp h with rfl | h
      · exact List.not_mem_nil
      · exact ih h
    · rename_i hc
      rcases hrest : pieces rest with _ | ⟨first, more⟩
      · exact absurd hrest (pieces_ne_nil rest)
      · rw [hrest] at h ih
        rcases List.mem_cons.mp h with rfl | h
        · rintro hdot
          rcases List.mem_cons.mp hdot with hdot | hdot
          · exact hc hdot.symm
          · exact ih List.mem_cons_self hdot
        · exact ih (List.mem_cons_of_mem _ h)

theorem Path.root_dotless (path : String) : '.' ∉ (root path).toList := by
  have hmem : root path ∈ segments path := by
    rw [segments_eq path]
    exact List.mem_cons_self
  obtain ⟨piece, hpiece, hroot⟩ := List.mem_map.mp hmem
  rw [← hroot, String.toList_ofList]
  exact not_mem_of_mem_pieces hpiece

namespace Document

theorem firstValue_eq (path : String) (d : Document) : d.firstValue path =
    ((d.get? (Path.root path)).toList.flatMap (Value.reach (Path.segments path).tail)).head?.getD
      .null := by
  have hlookup : d.lookup path =
      (d.get? (Path.root path)).toList.flatMap (Value.reach (Path.segments path).tail) := by
    rw [lookup, Path.segments_eq path, Value.reach_document]
    rfl
  rw [firstValue, first?, hlookup]

theorem firstValue_of_root {path : String} {d e : Document}
    (h : d.get? (Path.root path) = some (e.firstValue (Path.root path))) :
    d.firstValue path = e.firstValue path := by
  rw [firstValue_eq path d, firstValue_eq path e, h, firstValue,
    first?_of_dotless (Path.root_dotless path)]
  rcases e.get? (Path.root path) with _ | v
  · rcases (Path.segments path).tail with _ | ⟨first, rest⟩ <;> rfl
  · rfl

def keyValue (column : String) (row : Document) : Value :=
  match row.get? "_id" with
  | some (.document key) => (get? key column).getD .null
  | _ => .null

end Document

namespace Grouping

def Rule.toField (r : Rule) : String × Value := (r.name, .document [(r.op, r.expression)])

theorem rules_toField {rs : List Rule}
    (h : ∀ r ∈ rs, r.name ≠ "_id" ∧ ∃ start, Accumulator.initial r.op = .ok start) :
    rules (rs.map Rule.toField) = .ok rs := by
  induction rs with
  | nil => rfl
  | cons r rest ih =>
    obtain ⟨⟨hname, start, hstart⟩, hrest⟩ := List.forall_mem_cons.mp h
    rw [List.map_cons, Rule.toField, rules, if_neg hname, ih hrest, rule, hstart]
    rfl

theorem row_of_nodup {rs : List Rule} (h : ("_id" :: rs.map Rule.name).Nodup) (g : Group) :
    row rs g = ("_id", g.1) :: rs.map fun r => (r.name, r.result g.2) := by
  have hrow : row rs g = Document.merge [("_id", g.1)] (rs.map fun r => (r.name, r.result g.2)) := by
    rw [row, Document.merge, List.foldl_map]
  have hkeys : (Document.keys ([("_id", g.1)] ++ rs.map fun r => (r.name, r.result g.2))).Nodup := by
    rw [Document.keys, List.map_append, List.map_map]
    exact h
  rw [hrow, Document.merge_of_nodup hkeys]
  rfl

def lastRule (column : String) : Rule := ⟨column, "$last", Plan.reference column⟩

def countRule : Rule := ⟨Plan.aggregateField, "$sum", .int32 1⟩

def Rule.fed (r : Rule) (start : Accumulator) (docs : List Document) : Accumulator :=
  docs.foldl (fun acc doc => acc.feed (evaluate doc r.expression)) start

theorem Rule.fed_invariant (r : Rule) {p : Accumulator → Prop} {start : Accumulator} (hstart : p start)
    (hfeed : ∀ acc v, p acc → p (acc.feed v)) (docs : List Document) : p (r.fed start docs) := by
  induction docs generalizing start with
  | nil => exact hstart
  | cons d rest ih => exact ih (hfeed start _ hstart)

theorem result_lastRule (column : String) (front : List Document) (d : Document) :
    (lastRule column).result (front ++ [d]) = d.firstValue column := by
  have hresult : (lastRule column).result (front ++ [d]) =
      (((lastRule column).fed (.last .null) front).feed (evaluate d (Plan.reference column))).finish :=
    congrArg Accumulator.finish List.foldl_append
  obtain ⟨v, hv⟩ : ∃ v, (lastRule column).fed (.last .null) front = .last v := by
    apply Rule.fed_invariant (p := fun acc => ∃ v, acc = .last v) _ ⟨.null, rfl⟩
    rintro acc v ⟨w, rfl⟩
    exact ⟨v, rfl⟩
  rw [hresult, hv]
  exact evaluate_reference d column

theorem step_countRule (segment : String) (docs : List Document) :
    (countRule.result docs).step segment = [] := by
  have hresult : countRule.result docs = (countRule.fed (.sum 0.0 true) docs).finish := rfl
  obtain ⟨total, integral, hsum⟩ :
      ∃ total integral, countRule.fed (.sum 0.0 true) docs = .sum total integral := by
    apply Rule.fed_invariant (p := fun acc => ∃ total integral, acc = .sum total integral) _
      ⟨_, _, rfl⟩
    rintro acc v ⟨total, integral, rfl⟩
    rw [Accumulator.feed]
    split <;> exact ⟨_, _, rfl⟩
  rw [hresult, hsum, Accumulator.finish]
  split <;> rfl

end Grouping

namespace Plan

/-- A plan that groups by different columns and counts at most. No column has the name of another field
of its rows or of the natural order. -/
structure GroupsApart (s : Settings) (p : Plan) : Prop where
  nodup : p.groups.Nodup
  id : "_id" ∉ p.groups
  aggregateField : aggregateField ∉ p.groups
  natural : s.naturalSortColumn ∉ p.groups
  columns : p.effectiveColumns = []
  counts : ∀ a, p.aggregate = some a → a.function = .count

def groupKey (p : Plan) (d : Document) : Value :=
  .document (p.groups.map fun c => (c, d.firstValue c))

/-- Does its name lead to the column in no row? The name goes into the key if it starts with that. -/
def Unread (p : Plan) (column : String) : Prop :=
  Path.root column ∉ p.groups ∧
    (Path.root column = "_id" → ∀ c ∈ p.groups, (Path.segments column).tail.head? ≠ some c)

def keptRules (p : Plan) : List Rule :=
  p.groups.map lastRule ++ (p.aggregate.map fun _ => countRule).toList

namespace GroupsApart

variable {p : Plan} {s : Settings} (h : p.GroupsApart s)
include h

theorem nodup_keptRules : ("_id" :: p.keptRules.map Rule.name).Nodup := by
  have hnames : p.keptRules.map Rule.name =
      p.groups ++ (p.aggregate.map fun _ => Plan.aggregateField).toList := by
    rw [keptRules, List.map_append, List.map_map]
    congr 1
    · exact List.map_id _
    · cases p.aggregate <;> rfl
  rw [hnames]
  rcases p.aggregate with _ | a
  · simpa using ⟨h.id, h.nodup⟩
  · have hid : "_id" ∉ p.groups ++ [Plan.aggregateField] := by
      simpa using ⟨h.id, by decide⟩
    have hapart : ∀ c ∈ p.groups, ∀ name ∈ [Plan.aggregateField], c ≠ name := by
      rintro c hc name hname rfl
      exact h.aggregateField (List.mem_singleton.mp hname ▸ hc)
    exact List.nodup_cons.mpr
      ⟨hid, List.nodup_append.mpr ⟨h.nodup, List.nodup_singleton _, hapart⟩⟩

theorem groupFields_eq_rules (hne : p.groups ≠ []) : p.groupFields =
    ("_id", .document (p.groups.map fun c => (c, reference c))) ::
      (p.groups.map lastRule).map Rule.toField := by
  have hkept : p.keptColumns.map (fun kept => (kept.1, lastOf kept.2)) =
      p.groups.map fun c => (c, lastOf c) := by
    rw [keptColumns, h.columns, List.map_nil, List.append_nil, List.map_map]
    rfl
  have hkey := Document.nodup_keys_map h.nodup reference
  have hfields (key : Value) : (Document.keys
      ([("_id", key)] ++ p.groups.map fun c => (c, lastOf c))).Nodup := by
    have hcolumns := Document.keys_map p.groups lastOf
    rw [Document.keys] at hcolumns
    rw [Document.keys, List.map_append, hcolumns]
    exact List.nodup_cons.mpr ⟨h.id, h.nodup⟩
  rw [Plan.groupFields_eq p hne, Document.ofFields_of_nodup hkey, hkept,
    Document.merge_of_nodup (hfields _), List.map_map]
  rfl

theorem groupSpecOn_eq (hne : p.groups ≠ []) (paths : List String) : p.groupSpecOn paths =
    ("_id", .document (p.groups.map fun c => (c, reference c))) :: p.keptRules.map Rule.toField := by
  rw [groupSpecOn, h.groupFields_eq_rules hne, keptRules]
  rcases haggregate : p.aggregate with _ | ⟨function, columns⟩
  · rw [Option.map_none, Option.toList_none, List.append_nil]
    rfl
  · obtain rfl : function = .count := h.counts _ haggregate
    have hnew : Plan.aggregateField ∉ Document.keys
        (("_id", .document (p.groups.map fun c => (c, reference c))) ::
          (p.groups.map lastRule).map Rule.toField) := by
      rw [Document.keys, List.map_cons, List.map_map, List.map_map]
      have hid : Plan.aggregateField ≠ "_id" := by decide
      have hgroups : p.groups.map ((Prod.fst ∘ Rule.toField) ∘ lastRule) = p.groups := List.map_id _
      rw [hgroups]
      exact List.not_mem_cons_of_ne_of_not_mem hid h.aggregateField
    have hinsert := Document.insert_of_not_mem hnew (.document [("$sum", .int32 1)])
    rw [List.map_append, ← List.cons_append]
    exact hinsert

theorem group_eq (hne : p.groups ≠ []) (paths : List String) (docs : List Document) :
    Grouping.group (p.groupSpecOn paths) docs =
      .ok ((partition p.groupKey docs).map (row p.keptRules)) := by
  have hrules : Grouping.rules (p.groupSpecOn paths) = .ok p.keptRules := by
    rw [h.groupSpecOn_eq hne]
    refine rules_toField fun r hr => ⟨?_, ?_⟩
    · rintro hid
      exact (List.nodup_cons.mp h.nodup_keptRules).1 (List.mem_map.mpr ⟨r, hr, hid⟩)
    · rcases List.mem_append.mp hr with hr | hr
      · obtain ⟨c, -, rfl⟩ := List.mem_map.mp hr
        exact ⟨_, rfl⟩
      · obtain ⟨a, -, rfl⟩ := Option.map_eq_some_iff.mp (Option.mem_toList.mp hr)
        exact ⟨_, rfl⟩
  have hkey : (evaluate · (.document (p.groups.map fun c => (c, reference c)))) = p.groupKey := by
    funext d
    have hvalues := Document.nodup_keys_map h.nodup d.firstValue
    have hevaluated : (p.groups.map fun c => (c, reference c)).map
        (fun f => (f.1, evaluate d f.2)) = p.groups.map fun c => (c, d.firstValue c) := by
      simp [evaluate_reference]
    rw [evaluate, evaluateFields_eq_merge, hevaluated]
    exact congrArg Value.document (Document.ofFields_of_nodup hvalues)
  have hget : (p.groupSpecOn paths).get? "_id" =
      some (.document (p.groups.map fun c => (c, reference c))) := by
    rw [h.groupSpecOn_eq hne]
    rfl
  rw [Grouping.group, hget, hrules, ← hkey]
  rfl

variable {g : String} {group : Group} {first last : Document} {front : List Document}

theorem row_eq : row p.keptRules group =
    ("_id", group.1) :: p.keptRules.map fun r => (r.name, r.result group.2) :=
  row_of_nodup h.nodup_keptRules group

theorem get?_row_of_mem {c : String} (hc : c ∈ p.groups) (hlast : group.2 = front ++ [last]) :
    (row p.keptRules group).get? c = some (last.firstValue c) := by
  have hrule : lastRule c ∈ p.keptRules := List.mem_append_left _ (List.mem_map_of_mem hc)
  have hkeys : (row p.keptRules group).keys.Nodup := by
    rw [h.row_eq, Document.keys, List.map_cons, List.map_map]
    exact h.nodup_keptRules
  apply Document.get?_of_mem hkeys
  rw [h.row_eq, hlast, ← result_lastRule c front last]
  exact List.mem_cons_of_mem _ (List.mem_map_of_mem hrule)

theorem step_row_of_not_mem {c : String} (hc : c ∉ p.groups) (hid : c ≠ "_id") {v : Value}
    (hv : (row p.keptRules group).get? c = some v) (segment : String) : v.step segment = [] := by
  have hmem := Document.mem_of_get? hv
  rw [h.row_eq] at hmem
  rcases List.mem_cons.mp hmem with hfirst | hmem
  · exact absurd (Prod.mk.inj hfirst).1 hid
  · obtain ⟨r, hr, hfield⟩ := List.mem_map.mp hmem
    obtain ⟨rfl, rfl⟩ := Prod.mk.inj hfield
    rcases List.mem_append.mp hr with hr | hr
    · obtain ⟨c, hgroup, rfl⟩ := List.mem_map.mp hr
      exact absurd hgroup hc
    · obtain ⟨a, -, rfl⟩ := Option.map_eq_some_iff.mp (Option.mem_toList.mp hr)
      exact step_countRule segment group.2

theorem firstValue_row_of_root (hroot : Path.root g ∈ p.groups) (hlast : group.2 = front ++ [last]) :
    (row p.keptRules group).firstValue g = last.firstValue g :=
  Document.firstValue_of_root (h.get?_row_of_mem hroot hlast)

theorem get?_id_row (hkey : group.1 = p.groupKey first) :
    (row p.keptRules group).get? "_id" = some (p.groupKey first) := by
  rw [h.row_eq, ← hkey]
  rfl

theorem firstValue_row_of_unread (hg : g ∈ p.groups) (hunread : p.Unread g)
    (hkey : group.1 = p.groupKey first) : (row p.keptRules group).firstValue g = .null := by
  obtain ⟨hroot, hbehind⟩ := hunread
  have hbelow : (Path.segments g).tail ≠ [] := by
    intro hnil
    have hsegments := Path.segments_eq g
    rw [hnil] at hsegments
    exact hroot (Path.eq_of_segments_singleton hsegments ▸ hg)
  obtain ⟨segment, rest, hsegments⟩ := List.exists_cons_of_ne_nil hbelow
  rw [Document.firstValue_eq, hsegments]
  by_cases hid : Path.root g = "_id"
  · have hsegment : segment ∉ p.groups := by
      intro hmem
      apply hbehind hid segment hmem
      rw [hsegments]
      rfl
    have hnone : Document.get? (p.groups.map fun c => (c, first.firstValue c)) segment = none := by
      apply Document.get?_of_not_mem
      rwa [Document.keys_map]
    rw [hid, h.get?_id_row hkey, groupKey]
    simp [Value.reach_document, hnone]
  · rcases hget : (row p.keptRules group).get? (Path.root g) with _ | v
    · rfl
    · have hstep := h.step_row_of_not_mem hroot hid hget segment
      simp [Value.reach, hstep]

theorem keyValue_row (hg : g ∈ p.groups) (hkey : group.1 = p.groupKey first) :
    (row p.keptRules group).keyValue g = first.firstValue g := by
  have hget := Document.get?_of_mem (Document.nodup_keys_map h.nodup first.firstValue)
    (List.mem_map_of_mem (f := fun c => (c, first.firstValue c)) hg)
  rw [Document.keyValue, h.get?_id_row hkey, groupKey]
  exact congrArg (·.getD Value.null) hget

end GroupsApart

end Plan

theorem Grouping.Keyed.exists_ends {key : Document → Value} {group : Group} (h : Keyed key group) :
    ∃ first last front, group.2.head? = some first ∧ group.2 = front ++ [last] ∧
      group.1 = key first := by
  obtain ⟨first, rest, hdocs, hkey⟩ := h
  obtain ⟨front, last, hlast⟩ := (List.eq_nil_or_concat group.2).resolve_left (by simp [hdocs])
  exact ⟨first, last, front, by rw [hdocs]; rfl, by rw [hlast, List.concat_eq_append], hkey⟩

theorem looseEq_of_agree {columns : List String} {docs : List Document} {first d : Document}
    (h : docs.Pairwise (AgreeOn columns)) {c : String} (hc : c ∈ columns)
    (hfirst : docs.head? = some first) (hd : d ∈ docs) (hvalue : (d.firstValue c).isSortable = true) :
    (first.firstValue c).looseEq (d.firstValue c) = true := by
  obtain ⟨rest, rfl⟩ := List.head?_eq_some_iff.mp hfirst
  rcases List.mem_cons.mp hd with rfl | hd
  · exact Value.looseEq_of_isNanFree (Value.isNanFree_of_isSortable hvalue)
  · exact (List.pairwise_cons.mp h).1 d hd c hc

theorem Sorting.mergeSort_of_ties {keys : List Key} {docs : List Document}
    (h : ∀ d ∈ docs, ∀ e ∈ docs, compareBy d e keys = .eq) :
    docs.mergeSort (fun d e => compareBy d e keys != .gt) = docs := by
  apply List.mergeSort_of_pairwise
  apply List.pairwise_of_forall_mem_list
  intro d hd e he
  rw [h d hd e he]
  rfl

theorem Plan.partitions_groupKey (p : Plan) (docs : List Document) :
    Partitions (AgreeOn p.groups) ((partition p.groupKey docs).map Prod.snd) docs := by
  have hsame : SameKey p.groupKey = AgreeOn p.groups := by
    funext d e
    exact propext (looseEq_columns_iff d e p.groups)
  rw [← hsame]
  exact partition_partitions _ _

namespace Plan.GroupsApart

variable {p : Plan} {s : Settings} (h : p.GroupsApart s) {g : String} {direction : Direction}
  (hg : g ∈ p.groups)
include h hg

theorem keyValues_rows (docs : List Document) :
    ((partition p.groupKey docs).map (row p.keptRules)).map (·.keyValue g) =
      (((partition p.groupKey docs).map Prod.snd).filterMap List.head?).map (·.firstValue g) := by
  have hkeyed := partition_keyed p.groupKey docs
  generalize partition p.groupKey docs = groups at hkeyed ⊢
  induction groups with
  | nil => rfl
  | cons group rest ih =>
    obtain ⟨hgroup, hrest⟩ := List.forall_mem_cons.mp hkeyed
    obtain ⟨first, -, -, hfirst, -, hkey⟩ := hgroup.exists_ends
    simp only [List.map_cons, List.filterMap_cons, hfirst, h.keyValue_row hg hkey]
    exact congrArg _ (ih hrest)

theorem sortFields_eq (horders : p.orders = [(g, direction)]) :
    p.sortFields s = p.orders.map fun order => (order.1, order.2.sign) := by
  have hnatural : s.naturalSortColumn ∉ [g] := by
    intro hmem
    obtain rfl := List.mem_singleton.mp hmem
    exact h.natural hg
  have hplaced : p.orders = [g].map fun c => (c, (fun _ : String => direction) c) := horders
  exact sortFields_of_nodup (List.nodup_singleton g) hnatural hplaced

theorem inOrder_of_unread (horders : p.orders = [(g, direction)])
    (hunread : g = "$natural" ∨ p.Unread g) (docs : List Document) :
    p.inOrder s ((partition p.groupKey docs).map (row p.keptRules)) =
      .ok ((partition p.groupKey docs).map (row p.keptRules)) := by
  rcases hunread with rfl | hunread
  · have hkeys : Sorting.keys [("$natural", direction.sign)] = .ok [] := by
      cases direction <;> rfl
    rw [inOrder, h.sortFields_eq hg horders, horders]
    change Sorting.sort [("$natural", direction.sign)] _ = _
    rw [Sorting.sort, hkeys]
    exact congrArg Except.ok (Sorting.mergeSort_of_ties fun _ _ _ _ => rfl)
  · have hnatural : g ≠ "$natural" := by
      rintro rfl
      exact hunread.1 hg
    rw [inOrder_of_sortFields (h.sortFields_eq hg horders) (by simpa [horders] using hnatural)]
    refine congrArg Except.ok (Sorting.mergeSort_of_ties ?_)
    intro r hr r' hr'
    obtain ⟨group, hgroup, rfl⟩ := List.mem_map.mp hr
    obtain ⟨group', hgroup', rfl⟩ := List.mem_map.mp hr'
    obtain ⟨first, -, -, -, -, hkey⟩ := (partition_keyed p.groupKey docs group hgroup).exists_ends
    obtain ⟨first', -, -, -, -, hkey'⟩ := (partition_keyed p.groupKey docs group' hgroup').exists_ends
    have hnull := h.firstValue_row_of_unread hg hunread hkey
    have hnull' := h.firstValue_row_of_unread hg hunread hkey'
    rw [horders, List.map_singleton, Sorting.compareBy_keyOf (by rw [hnull]; rfl)
      (by rw [hnull']; rfl), hnull, hnull']
    cases direction <;> rfl

theorem read_row (hroot : Path.root g ∈ p.groups) {docs : List Document}
    (hvalues : ∀ d ∈ docs, (d.firstValue g).isSortable = true) :
    ∀ r ∈ (partition p.groupKey docs).map (row p.keptRules), (r.firstValue g).isSortable = true ∧
      (r.keyValue g).isSortable = true ∧ (r.keyValue g).looseEq (r.firstValue g) = true := by
  have hpartition := p.partitions_groupKey docs
  intro r hr
  obtain ⟨group, hgroup, rfl⟩ := List.mem_map.mp hr
  have hclass := List.mem_map_of_mem (f := Prod.snd) hgroup
  have hmembers := (hpartition.sublist _ hclass).subset
  obtain ⟨first, last, front, hfirst, hlast, hkey⟩ :=
    (partition_keyed p.groupKey docs group hgroup).exists_ends
  have hmem : last ∈ group.2 := by
    rw [hlast]
    exact List.mem_append_right _ (List.mem_singleton_self last)
  have hlastValue := hvalues last (hmembers hmem)
  rw [h.firstValue_row_of_root hroot hlast, h.keyValue_row hg hkey]
  exact ⟨hlastValue, hvalues first (hmembers (List.mem_of_mem_head? hfirst)),
    looseEq_of_agree (hpartition.within _ hclass) hg hfirst hmem hlastValue⟩

theorem pairwise_of_root (horders : p.orders = [(g, direction)]) (hnatural : g ≠ "$natural")
    (hroot : Path.root g ∈ p.groups) {docs rows : List Document}
    (hvalues : ∀ d ∈ docs, (d.firstValue g).isSortable = true)
    (hrows : p.inOrder s ((partition p.groupKey docs).map (row p.keptRules)) = .ok rows) :
    rows.Pairwise fun r r' => direction.order (r.keyValue g) (r'.keyValue g) ≠ .gt := by
  have hread := h.read_row hg hroot hvalues
  have hcomparable : ∀ r ∈ (partition p.groupKey docs).map (row p.keptRules),
      r.IsComparable [(g, direction)] :=
    fun r hr => List.forall_mem_singleton.mpr (hread r hr).1
  have hall := Sorting.comparesAll hcomparable
  have hsorted := inOrder_of_sortFields (h.sortFields_eq hg horders)
    (by simpa [horders] using hnatural) ((partition p.groupKey docs).map (row p.keptRules))
  rw [hrows, horders] at hsorted
  obtain rfl := Except.ok.inj hsorted
  apply (pairwise_mergeSort_of_mem hall.le_trans hall.le_total).imp_of_mem
  intro r r' hr hr' hle
  have hperm := List.mergeSort_perm ((partition p.groupKey docs).map (row p.keptRules)) fun d e =>
    Sorting.compareBy d e ([(g, direction)].map Sorting.keyOf) != .gt
  obtain ⟨hr, hkey, heq⟩ := hread r (hperm.subset hr)
  obtain ⟨hr', hkey', heq'⟩ := hread r' (hperm.subset hr')
  have hcompare : Sorting.compareBy r r' ([(g, direction)].map Sorting.keyOf) =
      direction.order (r.firstValue g) (r'.firstValue g) := by
    rw [List.map_singleton, @Sorting.compareBy_keyOf r r' (g, direction) hr hr' []]
    exact Ordering.then_eq
  rw [hcompare, bne_iff_ne, ← Direction.order_congr hkey hr hkey' hr' heq heq'] at hle
  exact hle

end Plan.GroupsApart

namespace Query

variable {q : Query} {m : Metered} {filter : Document} {targets : List (Option String × String)}
  {g : String} {direction : Direction}

/-- The rows of groups come in the order of a grouping column if the first part of its name is a grouping
column, as it is without dots. Otherwise they come in the order in which the groups first appear. -/
theorem get_groups_ordered (h : q.plan.GroupsApart q.settings) (hg : g ∈ q.plan.groups)
    (horders : q.plan.orders = [(g, direction)])
    (hfilter : Scope.filter q.settings q.plan.clauses = .ok filter)
    (hevaluates : ∀ d ∈ m.collection.documents, Filter.Evaluates d filter)
    (htargets : q.plan.aggregateColumns.mapM Plan.columnTarget = .ok targets)
    (honline : m.collection.online = true) :
    let matching := m.collection.documents.filter (Filter.passes · filter)
    let docs := Plan.unwoundAll (targets.filterMap Prod.fst) matching
    let groups := partition q.plan.groupKey docs
    Partitions (AgreeOn q.plan.groups) (groups.map Prod.snd) docs ∧ ∃ rows : List Document,
      rows.Perm (groups.map (Grouping.row q.plan.keptRules)) ∧
      (q.get.run m).1 = .ok (.documents
        ((Plan.cut q.plan.skip q.plan.limit rows).map q.plan.shownRow)) ∧
      (Path.root g ∈ q.plan.groups → g ≠ "$natural" →
        (∀ d ∈ docs, (d.firstValue g).isSortable = true) →
          rows.Pairwise fun r r' => direction.order (r.keyValue g) (r'.keyValue g) ≠ .gt) ∧
      (g = "$natural" ∨ q.plan.Unread g →
        rows = groups.map (Grouping.row q.plan.keptRules) ∧ rows.map (·.keyValue g) =
          ((groups.map Prod.snd).filterMap List.head?).map (·.firstValue g)) := by
  intro matching docs groups
  have hne : q.plan.groups ≠ [] := List.ne_nil_of_mem hg
  have hgrouped : q.plan.isGrouped = true := by
    simp [Plan.isGrouped, hne]
  have hcounts : q.plan.countsAll = false := by
    rw [Plan.countsAll]
    split <;> simp [hne]
  have hselect : Filter.select filter m.collection.documents = .ok matching :=
    Filter.select_eq_ok.mpr ⟨hevaluates, rfl⟩
  obtain ⟨rows, hrows, hperm⟩ :=
    q.plan.exists_inOrder q.settings (groups.map (Grouping.row q.plan.keptRules))
  have hrun : Pipeline.run ((q.plan.orderedStages q.settings filter targets).map Stage.toDocument)
      m.collection.documents = .ok rows := by
    rw [Plan.run_orderedStages hselect, h.group_eq hne]
    exact hrows
  refine ⟨q.plan.partitions_groupKey docs, rows, hperm, ?_, ?_, ?_⟩
  · rw [run_get_of_pipeline hfilter hgrouped hcounts htargets, hrun, Collection.reached,
      if_pos honline]
    rfl
  · exact fun hroot hnatural hvalues =>
      h.pairwise_of_root hg horders hnatural hroot hvalues hrows
  · intro hunread
    rw [h.inOrder_of_unread hg horders hunread docs] at hrows
    obtain rfl := Except.ok.inj hrows
    exact ⟨rfl, h.keyValues_rows hg docs⟩

theorem groups_ordered_dotted :
    let person (id city : String) : Document :=
      [("_id", .string id), ("address", .document [("city", .string city)])]
    let row (city : String) : Document :=
      [("_id", .document [("address.city", .string city)]), ("address.city", .string city)]
    let c : Collection := { Collection.empty "people" true with
      documents := [person "a" "Rome", person "b" "Oslo"] }
    let q : Query :=
      ⟨(Plan.empty.groupBy ["address.city"]).orderBy "address.city" .ascending, .standard, []⟩
    (q.get.run (.ofCollection c)).1 = .ok (.documents [row "Rome", row "Oslo"]) ∧
      ¬[row "Rome", row "Oslo"].Pairwise fun r r' => Direction.ascending.order
        (r.keyValue "address.city") (r'.keyValue "address.city") ≠ .gt := by
  intro person row c q
  have happart : q.plan.GroupsApart q.settings :=
    ⟨by decide, by decide, by decide, by decide, rfl, by rintro a ⟨⟩⟩
  have hmatching : c.documents.filter (Filter.passes · []) = c.documents :=
    List.filter_eq_self.mpr fun d _ => Filter.passes_of_holds d (Filter.holds_nil d)
  have hunread : q.plan.Unread "address.city" :=
    ⟨by decide, fun hid => absurd hid (by decide)⟩
  obtain ⟨-, rows, -, hget, -, hfirst⟩ := get_groups_ordered (q := q) (m := .ofCollection c)
    (g := "address.city") happart (by decide) rfl rfl (fun d _ => ⟨true, Filter.holds_nil d⟩) rfl rfl
  obtain ⟨rfl, -⟩ := hfirst (Or.inr hunread)
  refine ⟨?_, by decide⟩
  rw [hget]
  change Except.ok (ResultSet.documents (((partition q.plan.groupKey
    (c.documents.filter (Filter.passes · []))).map (Grouping.row q.plan.keptRules)).map id)) = _
  rw [hmatching]
  rfl

end Query

end RelDoc
