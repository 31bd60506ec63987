import RelDoc.Proofs.OrderedColumns
import RelDoc.Proofs.PageRows
import RelDoc.Proofs.ScopeNarrowing

namespace RelDoc

section pagesOf

variable {α : Type} (size : Nat)

def pagesOf (rows : List α) : List (List α) :=
  (List.range ((rows.length + size - 1) / size)).map (pageRows size rows)

theorem length_pagesOf (rows : List α) :
    (pagesOf size rows).length = (rows.length + size - 1) / size := by
  rw [pagesOf, List.length_map, List.length_range]

theorem flatten_pagesOf (hsize : 0 < size) (rows : List α) : (pagesOf size rows).flatten = rows := by
  have hfew : rows.length ≤ (rows.length + size - 1) / size * size := by
    have := Nat.lt_div_mul_add hsize (a := rows.length + size - 1)
    omega
  rw [pagesOf, ← List.flatMap_def, flatMap_pageRows, List.take_of_length_le hfew]

theorem pagesOf_nil (hsize : 0 < size) : pagesOf size ([] : List α) = [] := by
  have hnone : (([] : List α).length + size - 1) / size = 0 := by
    apply Nat.div_eq_of_lt
    rw [List.length_nil]
    omega
  rw [pagesOf, hnone]
  rfl

theorem pagesOf_eq_cons (hsize : 0 < size) {rows : List α} (hrows : rows ≠ []) :
    pagesOf size rows = rows.take size :: pagesOf size (rows.drop size) := by
  have hpos := List.length_pos_iff.mpr hrows
  have hcount : (rows.length + size - 1) / size =
      ((rows.drop size).length + size - 1) / size + 1 := by
    rw [List.length_drop, ← Nat.add_div_right _ hsize]
    rcases Nat.le_total rows.length size with hle | hge
    · rw [Nat.div_eq_of_lt_le (k := 1), Nat.div_eq_of_lt_le (k := 1)] <;> omega
    · congr 1
      omega
  have hnext (i : Nat) : pageRows size rows (i + 1) = pageRows size (rows.drop size) i := by
    rw [pageRows, pageRows, List.drop_drop, Nat.succ_mul, Nat.add_comm size]
  rw [pagesOf, hcount, List.range_succ_eq_map, List.map_cons, List.map_map, pagesOf]
  congr 1
  · rw [pageRows, Nat.zero_mul, List.drop_zero]
  · exact List.map_congr_left fun i _ => hnext i

theorem ne_nil_of_mem_pagesOf (hsize : 0 < size) {rows page : List α}
    (hpage : page ∈ pagesOf size rows) : page ≠ [] := by
  obtain ⟨i, hi, rfl⟩ := List.mem_map.mp hpage
  have hle := (Nat.le_div_iff_mul_le hsize).mp (List.mem_range.mp hi)
  rw [Ne, pageRows_eq_nil size rows hsize]
  rw [Nat.succ_mul] at hle
  omega

end pagesOf

structure Plan.Bare (p : Plan) : Prop extends Plan.Whole p where
  columns : p.columns = []
  projection : p.projection = none
  orders : p.orders = []

namespace Plan

variable {p : Plan} {s : Settings} {size : UInt64} {column : String}

def afterClauses (last : Literal) (column : String) : List Clause :=
  if isNull last then [] else [⟨.and, .compare column ">" last false⟩]

theorem pageAfter_eq (h : p.Bare) (size : UInt64) (last : Literal) (column : String) :
    p.pageAfter size last column = { p with
      clauses := p.clauses ++ afterClauses last column
      orders := [(column, .ascending)]
      limit := some size } := by
  unfold pageAfter afterClauses
  split <;> simp [filter, addClause, orderBy, limitedTo, h.orders, placeOrder]

theorem inOrder_pageAfter (h : p.Bare) (hcolumn : isOperator column = false)
    (hnatural : column ≠ s.naturalSortColumn) (size : UInt64) (last : Literal) (docs : List Document) :
    (p.pageAfter size last column).inOrder s docs = .ok (Sorting.ascending column docs) := by
  have hsign : column ≠ "$natural" := by
    rintro rfl
    exact absurd hcolumn (by decide)
  have hfields : (p.pageAfter size last column).sortFields s = [(column, .int32 1)] := by
    rw [pageAfter_eq h, sortFields]
    simp only [List.map_cons, List.map_nil, hnatural, if_false]
    rfl
  rw [inOrder, hfields]
  exact Sorting.sort_ascending hsign docs

theorem shownDocument_pageAfter (h : p.Bare) (size : UInt64) (last : Literal) (d : Document) :
    (p.pageAfter size last column).shownDocument d = d := by
  have hnone : (p.pageAfter size last column).findProjection = [] := by
    rw [pageAfter_eq h, findProjection, h.projection, effectiveColumns, h.columns]
    rfl
  rw [shownDocument, hnone]
  rfl

theorem cut_pageAfter (h : p.Bare) {size : UInt64} (hne : size ≠ 0) (hsmall : size.toNat < 2 ^ 53)
    (last : Literal) (rows : List Document) :
    cut (p.pageAfter size last column).skip (p.pageAfter size last column).limit rows =
      rows.take size.toNat := by
  rw [pageAfter_eq h]
  change upToLimit (some size) (afterSkip p.skip rows) = _
  rw [h.skip, upToLimit_of_le _ hne hsmall.le]
  rfl

end Plan

namespace Scope

variable {s : Settings} {column : String} {t : KeyType} {v : Value}

theorem fragment_after_value (hid : column = s.idField → t = .objectId) (hv : t.has v = true) :
    fragment s (.compare column ">" (.native v) false) =
      .ok (under column (.document (under "$gt" v))) := by
  have hprepare : prepare s column (.native v) = v := by
    rw [prepare]
    split
    · rename_i heq
      rw [hid heq] at hv
      cases v <;> first | rfl | cases hv
    · rfl
  rw [fragment, compareFragment_eq_ok]
  refine ⟨.gt, v, rfl, ?_, rfl⟩
  rw [hprepare]
  rfl

theorem holds_after_value (hcolumn : isOperator column = false) (v : Value) (d : Document) :
    Filter.holds d (under column (.document (under "$gt" v))) =
      .ok (Filter.anyValue (Filter.rangeHolds (· == .gt) v) (d.lookup column)) := by
  rw [under, Filter.holds_column d hcolumn]
  exact Filter.conditionHolds_operator rfl (by decide) (by decide) _ v

theorem anyValue_rangeHolds {x : Value} (hx : t.has x = true) (hv : t.has v = true) :
    Filter.anyValue (Filter.rangeHolds (· == .gt) v) [x] = (x.order v == .gt) := by
  have hrange : Filter.rangeHolds (· == .gt) v x = (x.order v == .gt) := by
    rw [Filter.rangeHolds, KeyType.rank_eq hx hv, beq_self_eq_true, Bool.true_and]
  rw [← hrange, Filter.anyValue, List.any_cons, List.any_nil]
  cases x <;> first | rw [Bool.or_false, Bool.or_false] | (cases t <;> cases hx)

variable {clauses : List Clause} {filter : Document} {docs : List Document}

theorem select_after_value (hcolumn : isOperator column = false)
    (hid : column = s.idField → t = .objectId) (hv : t.has v = true)
    (hfilter : Scope.filter s clauses = .ok filter) (hraw : RawKeysDistinct clauses)
    (hev : ∀ d ∈ docs, ClausesEvaluate s d clauses)
    (hkeyed : KeyedBy t column (docs.filter (Filter.passes · filter))) :
    ∃ f, Scope.filter s (clauses ++ [⟨.and, .compare column ">" (.native v) false⟩]) = .ok f ∧
      Filter.select f docs = .ok ((docs.filter (Filter.passes · filter)).filter
        fun d => (d.firstValue column).order v == .gt) := by
  obtain ⟨f, hf, hholds⟩ := holds_filter_narrowed hraw
    (rawKeysDistinct_compare column ">" (.native v) false) hfilter (fragment_after_value hid hv)
    (holds_after_value hcolumn v)
  refine ⟨f, hf, Filter.select_eq_ok.mpr ⟨fun d hd => ⟨_, hholds d (hev d hd)⟩, ?_⟩⟩
  rw [List.filter_filter]
  apply List.filter_congr
  intro d hd
  rw [Filter.passes_of_holds d (hholds d (hev d hd))]
  cases hpasses : Filter.passes d filter with
  | false => simp
  | true =>
    have hmem : d ∈ docs.filter (Filter.passes · filter) := List.mem_filter.mpr ⟨hd, hpasses⟩
    rw [hkeyed.lookup_eq hmem, anyValue_rangeHolds (hkeyed.has_firstValue hmem) hv,
      Bool.true_and, Bool.and_true]

end Scope

namespace Query

open Scope Sorting

variable {q : Query} {m : Metered} {t : KeyType} {size : UInt64} {column : String} {filter : Document}

def getAfter (q : Query) (size : UInt64) (last : Literal) (column : String) : Request ResultSet :=
  (q.scope (·.pageAfter size last column)).get

/-- A walk from a value on, with its pages. The next page is the one behind the value of the column in
the last row, and an empty page ends the walk. -/
inductive Walk (q : Query) (size : UInt64) (column : String) :
    Literal → Metered → List (List Document) → Prop
  | done {last m} (hpage : ((q.getAfter size last column).run m).1 = .ok (.documents [])) :
      Walk q size column last m []
  | step {last m page pages} (hrows : page ≠ [])
      (hpage : ((q.getAfter size last column).run m).1 = .ok (.documents page))
      (hnext : Walk q size column (.native ((page.getLast hrows).firstValue column))
        ((q.getAfter size last column).run m).2 pages) :
      Walk q size column last m (page :: pages)

structure Walkable (q : Query) (t : KeyType) (column : String) (filter : Document)
    (docs : List Document) : Prop where
  bare : q.plan.Bare
  compiles : Scope.filter q.settings q.plan.clauses = .ok filter
  rawKeys : RawKeysDistinct q.plan.clauses
  notOperator : isOperator column = false
  notNatural : column ≠ q.settings.naturalSortColumn
  idType : column = q.settings.idField → t = .objectId
  evaluates : ∀ d ∈ docs, ClausesEvaluate q.settings d q.plan.clauses
  keyed : KeyedBy t column (docs.filter (Filter.passes · filter))

inductive Behind (column : String) (docs : List Document) : Literal → List Document → Prop
  | start : Behind column docs .null docs
  | behind {front d rest} (h : docs = front ++ d :: rest) :
      Behind column docs (.native (d.firstValue column)) rest

theorem Behind.next {docs rest : List Document} {last : Literal} (h : Behind column docs last rest)
    (n : Nat) (hrows : rest.take n ≠ []) :
    Behind column docs (.native (((rest.take n).getLast hrows).firstValue column)) (rest.drop n) := by
  obtain ⟨front, hfront⟩ : ∃ front, docs = front ++ rest := by
    cases h with
    | start => exact ⟨[], rfl⟩
    | @behind front d rest h => exact ⟨front ++ [d], by rw [h, List.append_cons]⟩
  have hsplit : docs = (front ++ (rest.take n).dropLast) ++
      (rest.take n).getLast hrows :: rest.drop n := by
    rw [List.append_assoc, List.append_cons, List.dropLast_append_getLast, List.take_append_drop,
      hfront]
  exact .behind hsplit

theorem select_behind {docs rest : List Document} {last : Literal}
    (h : q.Walkable t column filter docs)
    (hbehind : Behind column (ascending column (docs.filter (Filter.passes · filter))) last rest) :
    ∃ f chosen, Scope.filter q.settings (q.plan.clauses ++ Plan.afterClauses last column) = .ok f ∧
      Filter.select f docs = .ok chosen ∧ ascending column chosen = rest := by
  cases hbehind with
  | start =>
    refine ⟨filter, docs.filter (Filter.passes · filter), ?_, ?_, rfl⟩
    · rw [Plan.afterClauses, Plan.isNull, if_pos rfl, List.append_nil, h.compiles]
    · exact Filter.select_eq_ok.mpr
        ⟨fun d hd => evaluates_filter h.compiles h.rawKeys (h.evaluates d hd), rfl⟩
  | @behind front d rest hsplit =>
    have hd : d ∈ docs.filter (Filter.passes · filter) := by
      apply (ascending_perm column _).subset
      rw [hsplit]
      simp
    obtain ⟨f, hf, hselect⟩ := select_after_value h.notOperator h.idType (h.keyed.has_firstValue hd)
      h.compiles h.rawKeys h.evaluates h.keyed
    refine ⟨f, _, hf, hselect, ?_⟩
    rw [ascending_filter h.keyed, filter_after h.keyed hsplit]

theorem run_getAfter (h : q.Walkable t column filter m.collection.documents)
    (honline : m.collection.online = true) (hsize : 0 < size.toNat) (hsmall : size.toNat < 2 ^ 53)
    {last : Literal} {rest : List Document}
    (hbehind : Behind column
      (ascending column (m.collection.documents.filter (Filter.passes · filter))) last rest) :
    ((q.getAfter size last column).run m).1 = .ok (.documents (rest.take size.toNat)) := by
  obtain ⟨f, chosen, hf, hchosen, hrest⟩ := select_behind h hbehind
  have hne : size ≠ 0 := by
    rintro rfl
    exact absurd hsize (by decide)
  have hplan := Plan.pageAfter_eq h.bare size last column
  have hfilter : Scope.filter q.settings (q.plan.pageAfter size last column).clauses = .ok f := by
    rw [hplan]
    exact hf
  have hgrouped : (q.plan.pageAfter size last column).isGrouped = false := by
    rw [hplan, Plan.isGrouped, h.bare.groups, h.bare.aggregate]
    rfl
  have hdistinct : (q.plan.pageAfter size last column).distinct = false := by
    rw [hplan]
    exact h.bare.distinct
  have hoptions : (q.plan.pageAfter size last column).options = [] := by
    rw [hplan]
    exact h.bare.options
  have hshown (rows : List Document) :
      rows.map (q.plan.pageAfter size last column).shownDocument = rows := by
    rw [List.map_congr_left fun d _ => Plan.shownDocument_pageAfter h.bare size last d, List.map_id']
  have hrun := run_get_of_search (q := q.scope (·.pageAfter size last column)) (m := m) hfilter
    hgrouped hdistinct hoptions
  rw [hchosen, Collection.reached, if_pos honline] at hrun
  change ((q.getAfter size last column).run m).1 = _ at hrun
  rw [hrun]
  change (((q.plan.pageAfter size last column).inOrder q.settings chosen).map _).mapError _ = _
  rw [Plan.inOrder_pageAfter h.bare h.notOperator h.notNatural, hrest]
  change Except.ok (ResultSet.documents (List.map (q.plan.pageAfter size last column).shownDocument
    (Plan.cut (q.plan.pageAfter size last column).skip (q.plan.pageAfter size last column).limit
      rest))) = _
  rw [Plan.cut_pageAfter h.bare hne hsmall, hshown]

theorem collection_run_get (q : Query) (m : Metered) : (q.get.run m).2.collection = m.collection := by
  have hrun {α : Type} (command : Command α)
      (hread : (m.collection.perform command).2 = m.collection) :
      (m.collection.run command).2 = m.collection := by
    rw [Collection.run]
    split
    · exact hread
    · rfl
  rw [get]
  rcases q.strategy with e | strategy
  · rfl
  · cases strategy <;> exact hrun _ rfl

theorem walk_iff {docs : List Document} (h : q.Walkable t column filter docs)
    (hsize : 0 < size.toNat) (hsmall : size.toNat < 2 ^ 53) {last : Literal} {rest : List Document}
    (hbehind : Behind column (ascending column (docs.filter (Filter.passes · filter))) last rest)
    (hdocs : m.collection.documents = docs) (honline : m.collection.online = true)
    (pages : List (List Document)) :
    q.Walk size column last m pages ↔ pages = pagesOf size.toNat rest := by
  induction hn : rest.length using Nat.strong_induction_on generalizing rest last m pages with
  | _ n ih =>
  subst hdocs hn
  have hpage := run_getAfter h honline hsize hsmall hbehind
  by_cases hrows : rest.take size.toNat = []
  · have hrest : rest = [] := by
      rw [List.take_eq_nil_iff] at hrows
      exact hrows.resolve_left (Nat.ne_of_gt hsize)
    rw [hrest, pagesOf_nil _ hsize]
    rw [hrows] at hpage
    constructor
    · intro hwalk
      cases hwalk with
      | done => rfl
      | step hne hsome _ =>
        rw [hpage] at hsome
        cases hsome
        exact absurd rfl hne
    · rintro rfl
      exact .done hpage
  · have hrest : rest ≠ [] := fun heq => hrows (by rw [heq, List.take_nil])
    have hlength : (rest.drop size.toNat).length < rest.length := by
      rw [List.length_drop]
      have := List.length_pos_iff.mpr hrest
      omega
    have hcollection : ((q.getAfter size last column).run m).2.collection = m.collection :=
      collection_run_get (q.scope (·.pageAfter size last column)) m
    have hnext := ih _ hlength (hbehind.next size.toNat hrows)
      (congrArg Collection.documents hcollection)
      ((congrArg Collection.online hcollection).trans honline)
    rw [pagesOf_eq_cons _ hsize hrest]
    constructor
    · intro hwalk
      cases hwalk with
      | done hnone =>
        rw [hpage] at hnone
        exact absurd (ResultSet.documents.inj (Except.ok.inj hnone)) hrows
      | step hne hsome hwalk =>
        rw [hpage] at hsome
        cases hsome
        rw [(hnext _ rfl).mp hwalk]
    · rintro rfl
      exact .step hrows hpage ((hnext _ rfl).mpr rfl)

/-- A walk by a column that tells all documents in scope apart visits each of them once, in the order
of the column, and ends after as many pages as these documents fill. -/
theorem keyset_walk (h : q.Walkable t column filter m.collection.documents)
    (honline : m.collection.online = true) (hsize : 1 ≤ size.toNat) (hsmall : size.toNat < 2 ^ 53) :
    let inScope := m.collection.documents.filter (Filter.passes · filter)
    ∃ pages : List (List Document), (∀ ps, q.Walk size column .null m ps ↔ ps = pages) ∧
      pages.length = (inScope.length + size.toNat - 1) / size.toNat ∧ (∀ page ∈ pages, page ≠ []) ∧
      pages.flatten.Perm inScope ∧ pages.flatten.Pairwise (Document.Before column) := by
  intro inScope
  have hperm := ascending_perm column inScope
  refine ⟨pagesOf size.toNat (ascending column inScope),
    walk_iff h hsize hsmall .start rfl honline, ?_, ?_, ?_, ?_⟩
  · rw [length_pagesOf, hperm.length_eq]
  · exact fun page => ne_nil_of_mem_pagesOf _ hsize
  · rw [flatten_pagesOf _ hsize]
    exact hperm
  · rw [flatten_pagesOf _ hsize]
    exact pairwise_ascending h.keyed

theorem keyset_walk_people :
    let person (id : BitVec 96) (city : String) : Document :=
      [("_id", .objectId ⟨id⟩), ("city", .string city)]
    let docs := [person 7 "Oslo", person 5 "Rome", person 4 "Lima", person 6 "Oslo"]
    let m : Metered := .ofCollection { Collection.empty "people" true with documents := docs }
    let q : Query := ⟨{ Plan.empty with clauses := [⟨.and, .compare "city" "=" (.string "Oslo") false⟩,
      ⟨.or, .compare "city" "=" (.string "Rome") false⟩] }, .standard, []⟩
    (∃ filter, q.Walkable .objectId "_id" filter docs) ∧
      ∃ pages, (∀ ps, q.Walk 2 "_id" .null m ps ↔ ps = pages) ∧ pages.length = 2 := by
  intro person docs m q
  obtain ⟨filter, hfilter, hscope⟩ : ∃ filter, Scope.filter q.settings q.plan.clauses = .ok filter ∧
      docs.filter (Filter.passes · filter) = [person 7 "Oslo", person 5 "Rome", person 6 "Oslo"] :=
    ⟨_, rfl, rfl⟩
  have hwalkable : q.Walkable .objectId "_id" filter docs := {
    bare := ⟨⟨rfl, rfl, rfl, rfl, rfl, rfl⟩, rfl, rfl, rfl⟩
    compiles := hfilter
    rawKeys := by simp [q, RawKeysDistinct, allLeaves, leaves]
    notOperator := by decide
    notNatural := by decide
    idType := fun _ => rfl
    evaluates := by
      intro d hd clause hclause f hf
      simp only [docs, q, List.mem_cons, List.not_mem_nil, or_false] at hd hclause
      rcases hd with rfl | rfl | rfl | rfl <;> rcases hclause with rfl | rfl <;> cases hf <;>
        exact ⟨_, rfl⟩
    keyed := by
      rw [hscope]
      refine ⟨fun d hd => ?_, ?_⟩
      · simp only [List.mem_cons, List.not_mem_nil, or_false] at hd
        rcases hd with rfl | rfl | rfl <;> exact ⟨_, rfl, rfl⟩
      · change [Value.objectId ⟨7⟩, .objectId ⟨5⟩, .objectId ⟨6⟩].Nodup
        simp }
  have hsize : 1 ≤ (2 : UInt64).toNat := by decide
  have hsmall : (2 : UInt64).toNat < 2 ^ 53 := by decide
  obtain ⟨pages, hwalk, hlength, -⟩ := keyset_walk (m := m) hwalkable rfl hsize hsmall
  refine ⟨⟨filter, hwalkable⟩, pages, hwalk, ?_⟩
  change pages.length = ((docs.filter (Filter.passes · filter)).length + 2 - 1) / 2 at hlength
  rw [hlength, hscope, List.length_cons, List.length_cons, List.length_singleton]

end Query

end RelDoc
