import RelDoc.Proofs.Increments
import RelDoc.Proofs.Upserts

namespace RelDoc

structure Comparison where
  column : String
  spelling : String
  operator : Operator
  value : Literal
  parses : Operator.parse spelling = .ok operator
  dotless : '.' ∉ column.toList
  isField : isOperator column = false

namespace Comparison

def clause (c : Comparison) : Clause := ⟨.and, .compare c.column c.spelling c.value false⟩

def equal? (s : Settings) (c : Comparison) : Option Value :=
  if c.operator = .eq then some (Scope.prepare s c.column c.value) else none

def seed? (s : Settings) (c : Comparison) : Option Value :=
  match c.operator with
  | .eq => some (Scope.prepare s c.column c.value)
  | .like => (Pattern.Like.regex (Scope.prepare s c.column c.value)).toOption
  | _ => none

def seed (s : Settings) (d : Document) (c : Comparison) : Document :=
  ((c.seed? s).map (d.insert c.column)).getD d

/-- What the clause of a column gives for it. -/
def given (value? : Comparison → Option Value) (cs : List Comparison) (key : String) : Option Value :=
  (cs.find? fun c => c.column = key).bind value?

end Comparison

namespace Scope

open RelDoc.Filter Collection

def Fragment.Settled (f : Fragment) : Prop :=
  f.1 = .and ∧ (Constraints.merge [] f.2).toDocument = f.2

theorem rejoined_of_and {fs : List Fragment} (h : ∀ f ∈ fs, f.1 = .and) : rejoined fs = fs := by
  rcases fs with _ | ⟨⟨join, f⟩, _ | ⟨⟨join', g⟩, rest⟩⟩
  · rfl
  · cases join <;> rfl
  · obtain rfl : join = .and := h (join, f) (by simp)
    obtain rfl : join' = .and := h (join', g) (by simp)
    rfl

theorem collected_of_and {fs : List Fragment} (h : ∀ f ∈ fs, f.1 = .and) :
    collected .and fs = fs.map Prod.snd ∧ collected .or fs = [] := by
  constructor
  · rw [collected, List.filter_eq_self.mpr fun f hf => decide_eq_true (h f hf)]
  · rw [collected, List.filter_eq_nil_iff.mpr, List.map_nil]
    intro f hf
    rw [h f hf]
    decide

theorem seedAll_documents (filters : List Document) (seed : Document) :
    seedAll (filters.map .document) seed =
      filters.foldl (fun seed filter => seedFields filter seed) seed := by
  induction filters generalizing seed with
  | nil => rfl
  | cons filter rest ih => exact ih _

theorem seedFields_assemble {fs : List Fragment} (h : ∀ f ∈ fs, f.Settled) (seed : Document) :
    seedFields (assemble fs).toDocument seed =
      fs.foldl (fun seed f => seedFields f.2 seed) seed := by
  have hand : ∀ f ∈ fs, f.1 = .and := fun f hf => (h f hf).1
  -- One fragment is the filter itself; several stand in a list under `$and`.
  by_cases hsingle : ∃ f, fs = [(.and, f)]
  · obtain ⟨f, rfl⟩ := hsingle
    have hf := (h _ (List.mem_singleton_self _)).2
    change seedFields (Constraints.merge [] f).toDocument seed = seedFields f seed
    rw [hf]
  · rw [assemble_eq_lists fun f hf => hsingle ⟨f, hf⟩, rejoined_of_and hand]
    obtain ⟨hcollected, hnone⟩ := collected_of_and hand
    rcases fs with _ | ⟨first, rest⟩
    · rfl
    · obtain ⟨join, f⟩ := first
      obtain rfl : join = .and := hand (join, f) (by simp)
      rw [lists, otherJoin, toDocument_append, toDocument_listed, toDocument_listed, hcollected, hnone,
        if_neg (by simp), if_pos rfl, List.append_nil, listKey]
      change seedAll (((_ :: rest).map Prod.snd).map .document) seed = _
      rw [seedAll_documents, List.foldl_map]

theorem settled_under {key : String} (v : Value) (hkey : isOperator key = false) :
    Fragment.Settled (.and, under key v) := by
  have hlist : ¬(key = "$and" ∨ key = "$or") := by
    rintro (rfl | rfl) <;> cases hkey
  refine ⟨rfl, ?_⟩
  change [(key, (Constraint.ofField key v).toValue)] = [(key, v)]
  rw [Constraint.ofField, if_neg hlist, Constraint.toValue]

end Scope

namespace Operator

theorem isOperator_of_nativeKey? {op : Operator} {key : String} (h : op.nativeKey? = some key) :
    isOperator key = true := by
  cases op with
  | eq | like => cases h
  | structural name =>
    obtain rfl := Option.some.inj h
    rw [isOperator, String.toList_append]
    rfl
  | _ =>
    obtain rfl := Option.some.inj h
    rfl

end Operator

namespace Comparison

open RelDoc.Collection Scope

variable {s : Settings} {c : Comparison} {f : Document}

theorem fragment_clause (h : Scope.fragment s c.clause.condition = .ok f) : ∃ v,
    Scope.operand c.operator (prepare s c.column c.value) = .ok v ∧
      f = under c.column (compareWith c.operator false v) := by
  rw [clause, fragment, compareFragment_eq_ok] at h
  obtain ⟨op, v, hparse, hv, rfl⟩ := h
  rw [c.parses] at hparse
  obtain rfl := Except.ok.inj hparse
  exact ⟨v, hv, rfl⟩

theorem settled (h : Scope.fragment s c.clause.condition = .ok f) :
    Fragment.Settled (c.clause.join, f) := by
  obtain ⟨v, -, rfl⟩ := fragment_clause h
  exact settled_under _ c.isField

theorem seedFields_under (column : String) (v : Value) (d : Document) :
    seedFields (under column v) d = seedEntry column v d :=
  rfl

theorem seedEntry_operator (column : String) {key : String} (hkey : isOperator key = true) (v : Value)
    (d : Document) : seedEntry column (.document (under key v)) d = d := by
  have hoperators : hasOperators (.document (under key v)) = true := hkey
  simp [seedEntry, hoperators]

theorem seedEntry_like {v w : Value} (h : Pattern.Like.regex v = .ok w) (c : Comparison) (d : Document) :
    seedEntry c.column w d = d.insert c.column w := by
  unfold Pattern.Like.regex at h
  split at h
  · cases h
    simp [seedEntry, hasOperators, c.isField, Document.set_of_dotless c.dotless]
  · cases h

theorem seed?_of_nativeKey? {key : String} (hkey : c.operator.nativeKey? = some key) :
    c.seed? s = none := by
  rw [seed?]
  cases hop : c.operator with
  | eq | like =>
    rw [hop] at hkey
    cases hkey
  | _ => rfl

theorem seedFields_clause (hplain : c.operator = .eq → c.value.toValue.isOperand = true)
    (h : Scope.fragment s c.clause.condition = .ok f) (d : Document) :
    seedFields f d = c.seed s d := by
  obtain ⟨v, hv, rfl⟩ := fragment_clause h
  rw [seedFields_under]
  rcases hkey : c.operator.nativeKey? with _ | key
  -- Equality and patterns stand bare under their column.
  · have hbare : compareWith c.operator false v = v := by simp only [compareWith, hkey]
    rw [hbare, seed, seed?]
    cases hop : c.operator with
    | eq =>
      rw [hop] at hv
      obtain rfl := Except.ok.inj hv
      have hoperand := isOperand_prepare s c.column (hplain hop)
      exact (Filter.seedEntry_of_isOperand c.isField hoperand d).trans
        (Document.set_of_dotless c.dotless _ d)
    | like =>
      rw [hop] at hv
      change Pattern.Like.regex _ = _ at hv
      rw [hv]
      exact seedEntry_like hv c d
    | _ =>
      rw [hop] at hkey
      cases hkey
  · have hunder : compareWith c.operator false v = .document (under key v) := by
      simp only [compareWith, hkey]
    rw [hunder, seedEntry_operator c.column (Operator.isOperator_of_nativeKey? hkey), seed,
      seed?_of_nativeKey? hkey]
    rfl

variable {cs : List Comparison} {value? : Comparison → Option Value}

theorem given_cons (key : String) : given value? (c :: cs) key =
    if c.column = key then value? c else given value? cs key := by
  rw [given, List.find?_cons]
  split <;> simp_all [given]

theorem given_of_fresh {key : String} (h : ∀ c ∈ cs, c.column ≠ key) :
    given value? cs key = none := by
  rw [given, List.find?_eq_none.mpr fun c hc => by simpa using h c hc]
  rfl

theorem given_of_mem (hdistinct : cs.Pairwise fun c e => c.column ≠ e.column) (hc : c ∈ cs) :
    given value? cs c.column = value? c := by
  induction cs with
  | nil => cases hc
  | cons first rest ih =>
    obtain ⟨hfirst, hrest⟩ := List.pairwise_cons.mp hdistinct
    rw [given_cons]
    rcases List.mem_cons.mp hc with rfl | hc
    · rw [if_pos rfl]
    · rw [if_neg (hfirst c hc), ih hrest hc]

theorem get?_seed (s : Settings) (d : Document) (c : Comparison) (key : String) :
    (c.seed s d).get? key = if c.column = key then (c.seed? s).or (d.get? key) else d.get? key := by
  rw [seed]
  rcases c.seed? s with _ | v
  · rw [Option.none_or, ite_self]
    rfl
  · change (d.insert c.column v).get? key = _
    split
    next hkey =>
      rw [← hkey, Document.get?_insert]
      rfl
    next hkey => exact Document.get?_insert_of_ne d c.column v hkey

theorem get?_foldl_seed (s : Settings) (hdistinct : cs.Pairwise fun c e => c.column ≠ e.column)
    (d : Document) (key : String) :
    (cs.foldl (seed s) d).get? key = (given (seed? s) cs key).or (d.get? key) := by
  induction cs generalizing d with
  | nil => rfl
  | cons c rest ih =>
    obtain ⟨hfirst, hrest⟩ := List.pairwise_cons.mp hdistinct
    rw [List.foldl_cons, ih hrest, get?_seed, given_cons]
    split
    next hkey =>
      have hfresh : given (seed? s) rest key = none :=
        given_of_fresh fun e he => hkey ▸ (hfirst e he).symm
      rw [hfresh, Option.none_or]
    next => rfl

theorem settled_fragments {fs : List Fragment} (h : fragments s (cs.map clause) = .ok fs) :
    ∀ f ∈ fs, f.Settled := by
  rintro ⟨join, f⟩ hf
  obtain ⟨clause, hclause, rfl, hfragment⟩ := mem_fragments h hf
  obtain ⟨c, -, rfl⟩ := List.mem_map.mp hclause
  exact settled hfragment

theorem foldl_fragments (hplain : ∀ c ∈ cs, c.operator = .eq → c.value.toValue.isOperand = true)
    {fs : List Fragment} (h : fragments s (cs.map clause) = .ok fs) (d : Document) :
    fs.foldl (fun d f => seedFields f.2 d) d = cs.foldl (seed s) d := by
  induction cs generalizing fs d with
  | nil =>
    obtain rfl := fragments_nil.mp h
    rfl
  | cons c rest ih =>
    obtain ⟨hc, hrest⟩ := List.forall_mem_cons.mp hplain
    obtain ⟨f, more, hf, hmore, rfl⟩ := fragments_cons.mp h
    rw [List.foldl_cons, List.foldl_cons, seedFields_clause hc hf, ih hrest hmore]

theorem seed?_of_like (hlike : c.operator = .like) (hc : c ∈ cs) {rest : List Clause} {filter : Document}
    (h : Scope.filter s (cs.map clause ++ rest) = .ok filter) : ∃ v, c.seed? s = some v := by
  obtain ⟨fs, hfs, -⟩ := filter_eq_ok.mp h
  obtain ⟨f, hf⟩ := exists_fragment hfs (List.mem_append_left _ (List.mem_map_of_mem hc))
  obtain ⟨v, hv, -⟩ := fragment_clause hf
  rw [hlike] at hv
  change Pattern.Like.regex _ = _ at hv
  refine ⟨v, ?_⟩
  rw [seed?, hlike]
  simp only [hv]
  rfl

theorem seed?_eq_equal? (h : c.operator ≠ .like) : c.seed? s = c.equal? s := by
  rw [seed?, equal?]
  cases hop : c.operator with
  | eq => rfl
  | like => exact absurd hop h
  | _ => rw [if_neg (by simp)]

theorem seedFields_scope (hplain : ∀ c ∈ cs, c.operator = .eq → c.value.toValue.isOperand = true)
    {guard : Option Clause} (hguard : ∀ g ∈ guard, ∃ column, g = Mutation.incrementable column)
    {filter : Document} (h : Scope.filter s (cs.map clause ++ guard.toList) = .ok filter)
    (d : Document) : seedFields filter d = cs.foldl (seed s) d := by
  obtain ⟨all, hall, rfl⟩ := filter_eq_ok.mp h
  obtain ⟨fs, gs, hfs, hgs, rfl⟩ := fragments_of_append hall
  have hguarded : (∀ g ∈ gs, g.Settled) ∧ ∀ d, gs.foldl (fun d g => seedFields g.2 d) d = d := by
    rcases guard with _ | g
    · obtain rfl := fragments_nil.mp hgs
      simp
    · obtain ⟨column, rfl⟩ := hguard g rfl
      obtain ⟨g, hg, rfl⟩ := fragments_singleton hgs
      rw [fragment_incrementable] at hg
      obtain rfl := Except.ok.inj hg
      rw [List.forall_mem_singleton]
      exact ⟨⟨rfl, rfl⟩, fun _ => rfl⟩
  obtain ⟨hsettled, hnothing⟩ := hguarded
  rw [seedFields_assemble (List.forall_mem_append.mpr ⟨settled_fragments hfs, hsettled⟩),
    List.foldl_append, hnothing, foldl_fragments hplain hfs]

end Comparison

def Mutation.Writes (mutation : Mutation) (key : String) : Prop :=
  key = "_id" ∨ ∃ edit ∈ Update.edits mutation.operations, (Path.segments edit.2).head? = some key

namespace Query

open Comparison

/-- An upsert that finds nothing adds a document. Its columns, but for those that the update writes, come
from the clauses of equality and from those of a pattern, so that they are the ones that were asked to be
equal to a value as long as every pattern stands for a column that is written. -/
theorem upserted_columns_iff {q : Query} {mutation : Mutation} {comparisons : List Comparison}
    {filter : Document} {m : Metered} {n : Nat}
    (hclauses : q.plan.clauses = comparisons.map Comparison.clause)
    (hdistinct : comparisons.Pairwise fun c e => c.column ≠ e.column)
    (hplain : ∀ c ∈ comparisons, c.operator = .eq → c.value.toValue.isOperand = true)
    (hguard : ∀ g ∈ mutation.guard, ∃ column, g = Mutation.incrementable column)
    (hupsert : Collection.flag (Mutation.options q.settings q.writeOptions) "upsert" false = true)
    (hfilter : Scope.filter q.settings (q.plan.clauses ++ mutation.guard.toList) = .ok filter)
    (hnone : ∀ d ∈ m.collection.documents, Filter.passes d filter = false)
    (hrun : ((q.mutate mutation).run m).1 = .ok n) : ∃ inserted,
      ((q.mutate mutation).run m).2.collection.documents = m.collection.documents ++ [inserted] ∧
      (∀ key, ¬mutation.Writes key →
        inserted.get? key = given (seed? q.settings) comparisons key) ∧
      ((∀ key, ¬mutation.Writes key →
          inserted.get? key = given (equal? q.settings) comparisons key) ↔
        ∀ c ∈ comparisons, c.operator = .like → mutation.Writes c.column) := by
  obtain ⟨scope, report, hscope, hreport, hafter⟩ := run_mutate_ok hrun
  obtain rfl : scope = filter := Except.ok.inj (hscope.symm.trans hfilter)
  obtain ⟨after, changed, happlied, hdocuments⟩ := Collection.run_upsert_ok hupsert hnone hreport
  rw [hclauses] at hscope
  rw [seedFields_scope hplain hguard hscope] at happlied
  have hgiven : ∀ key, ¬mutation.Writes key →
      (Collection.withIdentifier m.collection.handedOut after).get? key =
        given (seed? q.settings) comparisons key := by
    intro key hkey
    obtain ⟨hid, hpaths⟩ := not_or.mp hkey
    push Not at hpaths
    rw [Collection.get?_withIdentifier_of_ne _ _ hid, Update.get?_applied hpaths happlied,
      get?_foldl_seed q.settings hdistinct [] key]
    exact Option.or_none
  refine ⟨_, hafter ▸ hdocuments, hgiven, ?_⟩
  constructor
  · intro hequal c hc hlike
    by_contra hkey
    have hsame := (hgiven c.column hkey).symm.trans (hequal c.column hkey)
    rw [given_of_mem hdistinct hc, given_of_mem hdistinct hc] at hsame
    obtain ⟨v, hv⟩ := seed?_of_like hlike hc hscope
    rw [hv, equal?, hlike] at hsame
    cases hsame
  · intro hlike key hkey
    rw [hgiven key hkey]
    by_cases hcolumn : ∃ c ∈ comparisons, c.column = key
    · obtain ⟨c, hc, rfl⟩ := hcolumn
      have hother : c.operator ≠ .like := fun hop => hkey (hlike c hc hop)
      rw [given_of_mem hdistinct hc, given_of_mem hdistinct hc, seed?_eq_equal? hother]
    · push Not at hcolumn
      rw [given_of_fresh hcolumn, given_of_fresh hcolumn]

theorem upserted_columns_iff_pattern :
    let name : Comparison := ⟨"name", "like", .like, .string "A%", rfl, by decide, by decide⟩
    let city : Comparison := ⟨"city", "=", .eq, .string "Oslo", rfl, by decide, by decide⟩
    let age : Comparison := ⟨"age", ">", .gt, .integer 3, rfl, by decide, by decide⟩
    let comparisons := [name, city, age]
    let p : Plan := { Plan.empty with clauses := comparisons.map Comparison.clause }
    let q : Query := ⟨p, .standard, [("upsert", .boolean true)]⟩
    let mutation : Mutation := ⟨[("$set", .document [("score", .int32 1)])], none⟩
    let other : Document := [("_id", .int32 1), ("city", .string "Rome")]
    let m : Metered := .ofCollection { Collection.empty "people" true with documents := [other] }
    comparisons.Pairwise (fun c e => c.column ≠ e.column) ∧
      (∀ c ∈ comparisons, c.operator = .eq → c.value.toValue.isOperand = true) ∧
      ¬mutation.Writes "name" ∧ ((q.mutate mutation).run m).1 = .ok 1 ∧
      ∃ inserted, ((q.mutate mutation).run m).2.collection.documents = [other, inserted] ∧
        inserted.get? "name" = some (.regex "^A.*" "i") ∧
        inserted.get? "city" = some (.string "Oslo") ∧ inserted.get? "age" = none ∧
        ¬∀ key, ¬mutation.Writes key → inserted.get? key = given (equal? .standard) comparisons key := by
  intro name city age comparisons p q mutation other m
  have hdistinct : comparisons.Pairwise fun c e => c.column ≠ e.column := by
    simp [comparisons, name, city, age]
  have hplain : ∀ c ∈ comparisons, c.operator = .eq → c.value.toValue.isOperand = true := by
    simp [comparisons, name, city, age, Literal.toValue, Value.isOperand]
  let filter : Document := [("$and", .array [.document [("name", .regex "^A.*" "i")],
    .document [("city", .string "Oslo")], .document [("age", .document [("$gt", .int32 3)])]])]
  have hcompiled : Scope.filter .standard [⟨.and, .compare "name" "like" (.string "A%") false⟩,
      ⟨.and, .compare "city" "=" (.string "Oslo") false⟩,
      ⟨.and, .compare "age" ">" (.integer 3) false⟩] = .ok filter := rfl
  have hfilter : Scope.filter q.settings (q.plan.clauses ++ mutation.guard.toList) = .ok filter :=
    hcompiled
  have hother : Filter.passes other filter = false := rfl
  have hrun : ((q.mutate mutation).run m).1 = .ok 1 := by decide +kernel
  have hwrites (key : String) : mutation.Writes key ↔ key = "_id" ∨ "score" = key := by
    have hedits : Update.edits mutation.operations = [("$set", "score")] := rfl
    have hhead : (Path.segments "score").head? = some "score" := by decide
    rw [Mutation.Writes, hedits]
    simp [hhead]
  obtain ⟨inserted, hdocuments, hgiven, hiff⟩ := upserted_columns_iff (m := m) rfl hdistinct hplain
    (by simp [mutation]) rfl hfilter (List.forall_mem_singleton.mpr hother) hrun
  have hname : ¬mutation.Writes "name" := by simp [hwrites]
  refine ⟨hdistinct, hplain, hname, hrun, inserted, hdocuments, ?_, ?_, ?_, ?_⟩
  · rw [hgiven "name" hname]
    rfl
  · rw [hgiven "city" (by simp [hwrites])]
    rfl
  · rw [hgiven "age" (by simp [hwrites])]
    rfl
  · intro hequal
    exact hname (hiff.mp hequal name (by simp [comparisons]) rfl)

end Query

end RelDoc
