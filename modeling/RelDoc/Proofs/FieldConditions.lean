import RelDoc.Collection
import RelDoc.Proofs.EqualityClauses
import RelDoc.Proofs.FieldUpdates
import RelDoc.Proofs.UnderstoodClauses

namespace RelDoc

open RelDoc.Path

theorem Path.Apart.symm {p q : List String} (h : Apart p q) : Apart q p := ⟨h.2, h.1⟩

namespace Document

variable {p q : List String} {v : Value} {d e : Document}

def LeadsTo (v : Value) : List String → Document → Prop
  | [], _ => False
  | [key], d => d.get? key = some v
  | key :: rest, d => ∃ inner, d.get? key = some (.document inner) ∧ LeadsTo v rest inner

theorem leadsTo_cons (key : String) (hp : p ≠ []) :
    LeadsTo v (key :: p) d ↔ ∃ inner, d.get? key = some (.document inner) ∧ LeadsTo v p inner := by
  cases p with
  | nil => exact absurd rfl hp
  | cons next rest => rfl

theorem LeadsTo.congr {key : String} (h : LeadsTo v (key :: p) d) (hkey : e.get? key = d.get? key) :
    LeadsTo v (key :: p) e := by
  cases p with
  | nil => exact hkey.trans h
  | cons next rest =>
    obtain ⟨inner, hinner, hrest⟩ := h
    exact ⟨inner, hkey.trans hinner, hrest⟩

theorem LeadsTo.exists_get? {key : String} (h : LeadsTo v (key :: p) d) :
    ∃ w, d.get? key = some w := by
  cases p with
  | nil => exact ⟨v, h⟩
  | cons next rest =>
    obtain ⟨inner, hinner, -⟩ := h
    exact ⟨_, hinner⟩

@[elab_as_elim]
theorem LeadsTo.induction {motive : ∀ (p : List String) (d : Document), LeadsTo v p d → Prop}
    (last : ∀ (key : String) (d : Document) (h : d.get? key = some v), motive [key] d h)
    (inside : ∀ (key : String) p (d inner : Document) (hp : p ≠ []) (hinner : d.get? key = some (.document inner))
      (h : LeadsTo v p inner), motive p inner h →
      motive (key :: p) d ((leadsTo_cons key hp).mpr ⟨inner, hinner, h⟩))
    {p : List String} {d : Document} (h : LeadsTo v p d) : motive p d h := by
  induction p generalizing d with
  | nil => exact h.elim
  | cons key rest ih =>
    by_cases hrest : rest = []
    · subst hrest
      exact last key d h
    · obtain ⟨inner, hinner, hleads⟩ := (leadsTo_cons key hrest).mp h
      exact inside key rest d inner hrest hinner hleads (ih hleads)

theorem LeadsTo.reach (h : LeadsTo v p d) : (Value.document d).reach p = [v] := by
  induction h using LeadsTo.induction with
  | last key d hv =>
    rw [Value.reach_document, hv]
    rfl
  | inside key p d inner hp hinner hleads ih =>
    rw [Value.reach_document, hinner]
    exact (List.flatMap_singleton _ _).trans ih

theorem LeadsTo.below {key : String} (hp : p ≠ []) (h : LeadsTo v (key :: p) d) :
    LeadsTo v p (d.below key) := by
  obtain ⟨inner, hinner, hleads⟩ := (leadsTo_cons key hp).mp h
  rw [Document.below, hinner]
  exact hleads

theorem leadsTo_setAt (hp : p ≠ []) (v : Value) (d : Document) : LeadsTo v p (setAt p v d) := by
  induction p generalizing d with
  | nil => exact absurd rfl hp
  | cons key rest ih =>
    by_cases hrest : rest = []
    · subst hrest
      exact get?_insert d key v
    · rw [setAt_cons key hrest, leadsTo_cons key hrest]
      exact ⟨_, get?_insert d key _, ih hrest _⟩

theorem leadsTo_set (path : String) (v : Value) (d : Document) :
    LeadsTo v (segments path) (d.set path v) :=
  leadsTo_setAt (segments_ne_nil path) v d

theorem LeadsTo.setAt (h : LeadsTo v q d) (hapart : Apart p q) (w : Value) :
    LeadsTo v q (setAt p w d) := by
  induction hapart using Apart.induction generalizing d with
  | part a b p q hab => exact h.congr (get?_setAt_of_ne hab p w d)
  | share a p q hrest ih =>
    obtain ⟨hp, hq⟩ := hrest.ne_nil
    rw [setAt_cons a hp, leadsTo_cons a hq]
    exact ⟨_, get?_insert d a _, ih (h.below hq)⟩

theorem LeadsTo.removeAt (h : LeadsTo v q d) (hapart : Apart p q) :
    LeadsTo v q (removeAt p d).2 := by
  induction hapart using Apart.induction generalizing d with
  | part a b p q hab => exact h.congr (get?_removeAt_of_ne hab p d)
  | share a p q hrest ih =>
    obtain ⟨hp, hq⟩ := hrest.ne_nil
    obtain ⟨inner, hinner, hleads⟩ := (leadsTo_cons a hq).mp h
    rcases removeAt_cons a hp d with ⟨inner', hinner', hremove⟩ | ⟨hnone, -⟩
    · rw [hinner] at hinner'
      cases hinner'
      rw [hremove, leadsTo_cons a hq]
      exact ⟨_, get?_insert d a _, ih hleads⟩
    · exact absurd hinner (hnone inner)

def setEach (d : Document) (fields : List (String × Value)) : Document :=
  fields.foldl (fun d field => d.set field.1 field.2) d

theorem setEach_append (d : Document) (fields more : List (String × Value)) :
    d.setEach (fields ++ more) = (d.setEach fields).setEach more :=
  List.foldl_append

theorem LeadsTo.setEach {fields : List (String × Value)} (h : LeadsTo v q d)
    (hapart : ∀ field ∈ fields, Apart (segments field.1) q) : LeadsTo v q (d.setEach fields) := by
  induction fields generalizing d with
  | nil => exact h
  | cons field rest ih =>
    obtain ⟨hfield, hrest⟩ := List.forall_mem_cons.mp hapart
    exact ih (h.setAt hfield field.2) hrest

theorem leadsTo_setEach {fields : List (String × Value)}
    (hapart : fields.Pairwise fun f g => Apart (segments f.1) (segments g.1)) (d : Document) :
    ∀ field ∈ fields, LeadsTo field.2 (segments field.1) (d.setEach fields) := by
  induction fields generalizing d with
  | nil => simp
  | cons field rest ih =>
    obtain ⟨hfield, hrest⟩ := List.pairwise_cons.mp hapart
    rw [List.forall_mem_cons]
    constructor
    · apply (leadsTo_set field.1 field.2 d).setEach
      intro other hother
      exact (hfield other hother).symm
    · exact ih hrest _

end Document

namespace Update

open Document

variable {v : Value} {q : List String} {d after : Document}

theorem leadsTo_edit {op path : String} {argument : Value} (hapart : Apart (segments path) q)
    (hedit : edit op d path argument = .ok after) (h : LeadsTo v q d) : LeadsTo v q after := by
  rcases edit_eq_ok hedit with rfl | ⟨w, rfl⟩ | ⟨-, rfl⟩
  · exact h
  · exact h.setAt hapart w
  · exact h.removeAt hapart

theorem leadsTo_applied {update : Document} {changed : Bool}
    (hapart : ∀ edit ∈ edits update, Apart (segments edit.2) q)
    (happlied : applied update d = .ok (after, changed)) (h : LeadsTo v q d) :
    LeadsTo v q after := by
  have hrun := (applied_eq_ok.mp happlied).1
  have hkept : LeadsTo v q (run update d).1 := by
    apply run_invariant _ h
    intro op path argument before left hmem hedit hbefore
    exact leadsTo_edit (hapart _ hmem) hedit hbefore
  rwa [hrun] at hkept

end Update

namespace Filter

open Document

/-- A filter that consists of conditions on fields, in this order, some of them perhaps in the filters of
a list under `$and`. -/
inductive Conjunction : Document → List (String × Value) → Prop
  | nil : Conjunction [] []
  | field {key : String} {v : Value} {rest : Document} {more : List (String × Value)}
      (hkey : isOperator key = false) (hrest : Conjunction rest more) :
      Conjunction ((key, v) :: rest) ((key, v) :: more)
  | listEnd {rest : Document} {more : List (String × Value)} (hrest : Conjunction rest more) :
      Conjunction (("$and", .array []) :: rest) more
  | listItem {first rest : Document} {items : List Value} {conditions more : List (String × Value)}
      (hfirst : Conjunction first conditions)
      (hrest : Conjunction (("$and", .array items) :: rest) more) :
      Conjunction (("$and", .array (.document first :: items)) :: rest) (conditions ++ more)

variable {filter : Document} {conditions : List (String × Value)}

theorem Conjunction.exists_items {items : List Value} {rest : Document}
    (h : Conjunction (("$and", .array items) :: rest) conditions) :
    ∃ filters : List Document, items = filters.map .document := by
  induction items generalizing conditions with
  | nil => exact ⟨[], rfl⟩
  | cons item more ih =>
    cases h with
    | field hkey hrest => cases hkey
    | listItem hfirst hrest =>
      obtain ⟨filters, rfl⟩ := ih hrest
      exact ⟨_ :: filters, rfl⟩

theorem holds_listItem (d first rest : Document) (filters : List Document) :
    holds d (("$and", .array (.document first :: filters.map .document)) :: rest) =
      (holds d first).bind fun b =>
        if b then holds d (("$and", .array (filters.map .document)) :: rest) else .ok false := by
  have hlist : entryHolds d "$and" (.array (.document first :: filters.map .document)) =
      allHold d (.document first :: filters.map .document) := entryHolds_and d (first :: filters)
  rw [holds_cons, hlist, allHold_cons, holds_cons, entryHolds_and]
  rcases holds d first with e | b
  · rfl
  · cases b <;> rfl

theorem entryHolds_of_isOperand {key : String} {v : Value} (hkey : isOperator key = false)
    (hv : v.isOperand = true) (d : Document) : entryHolds d key v = equalsAny (d.lookup key) v := by
  rw [← holds_singleton, holds_column d hkey, conditionHolds_of_isOperand hv]

theorem Conjunction.holds_iff (h : Conjunction filter conditions)
    (hvalues : ∀ c ∈ conditions, c.2.isOperand = true) (d : Document) :
    ∃ b, holds d filter = .ok b ∧ (b = true ↔ ∀ c ∈ conditions, EqualIn c.2 (d.lookup c.1)) := by
  induction h with
  | nil => exact ⟨true, holds_nil d, by simp⟩
  | @field key v rest more hkey hrest ih =>
    obtain ⟨hv, hmore⟩ := List.forall_mem_cons.mp hvalues
    obtain ⟨a, ha, haiff⟩ := equalsAny_equalIn (v := v) (by rintro _ _ rfl; cases hv) (d.lookup key)
    obtain ⟨b, hb, hbiff⟩ := ih hmore
    refine ⟨a && b, ?_, ?_⟩
    · rw [holds_cons, entryHolds_of_isOperand hkey hv, ha]
      cases a with
      | false => rfl
      | true => exact hb
    · rw [Bool.and_eq_true, haiff, hbiff, List.forall_mem_cons]
  | listEnd hrest ih =>
    obtain ⟨b, hb, hiff⟩ := ih hvalues
    refine ⟨b, ?_, hiff⟩
    have hend : entryHolds d "$and" (.array []) = .ok true := entryHolds_and d []
    rw [holds_cons, hend]
    exact hb
  | listItem hfirst hrest ihfirst ihrest =>
    obtain ⟨hconditions, hmore⟩ := List.forall_mem_append.mp hvalues
    obtain ⟨a, ha, haiff⟩ := ihfirst hconditions
    obtain ⟨b, hb, hbiff⟩ := ihrest hmore
    obtain ⟨filters, rfl⟩ := hrest.exists_items
    refine ⟨a && b, ?_, ?_⟩
    · rw [holds_listItem, ha]
      cases a with
      | false => rfl
      | true => exact hb
    · rw [Bool.and_eq_true, haiff, hbiff, List.forall_mem_append]

theorem Conjunction.false_of_not_true (hfilter : Conjunction filter conditions)
    (hvalues : ∀ c ∈ conditions, c.2.isOperand = true) {d : Document}
    (h : holds d filter ≠ .ok true) : holds d filter = .ok false := by
  obtain ⟨b, hb, -⟩ := hfilter.holds_iff hvalues d
  rw [hb] at h ⊢
  cases b with
  | false => rfl
  | true => exact absurd rfl h

theorem seedEntry_of_isOperand {key : String} {v : Value} (hkey : isOperator key = false)
    (hv : v.isOperand = true) (seed : Document) :
    Collection.seedEntry key v seed = seed.set key v := by
  have hand : key ≠ "$and" := by
    rintro rfl
    cases hkey
  cases v with
  | regex pattern options => cases hv
  | document fields =>
    have hfields : Collection.hasOperators (.document fields) = false := by
      rwa [Value.isOperand, Bool.not_eq_true'] at hv
    simp [Collection.seedEntry, hkey, hfields]
  | _ => simp [Collection.seedEntry, Collection.hasOperators, hkey, hand]

theorem Conjunction.seedFields_eq (h : Conjunction filter conditions)
    (hvalues : ∀ c ∈ conditions, c.2.isOperand = true) (seed : Document) :
    Collection.seedFields filter seed = seed.setEach conditions := by
  induction h generalizing seed with
  | nil => rfl
  | @field key v rest more hkey hrest ih =>
    obtain ⟨hv, hmore⟩ := List.forall_mem_cons.mp hvalues
    rw [Collection.seedFields, seedEntry_of_isOperand hkey hv]
    exact ih hmore _
  | listEnd hrest ih => exact ih hvalues seed
  | listItem hfirst hrest ihfirst ihrest =>
    obtain ⟨hconditions, hmore⟩ := List.forall_mem_append.mp hvalues
    rw [setEach_append, ← ihfirst hconditions, ← ihrest hmore]
    rfl

theorem Conjunction.holds_of_leadsTo (h : Conjunction filter conditions)
    (hvalues : ∀ c ∈ conditions, c.2.isOperand = true ∧ c.2.isNanFree = true) {d : Document}
    (hleads : ∀ c ∈ conditions, LeadsTo c.2 (segments c.1) d) : holds d filter = .ok true := by
  obtain ⟨b, hb, hiff⟩ := h.holds_iff (fun c hc => (hvalues c hc).1) d
  have hall : ∀ c ∈ conditions, EqualIn c.2 (d.lookup c.1) := by
    intro c hc
    have hlookup : d.lookup c.1 = [c.2] := (hleads c hc).reach
    have hself := Value.looseEq_of_isNanFree (hvalues c hc).2
    rw [hlookup]
    exact Or.inl ⟨c.2, List.mem_singleton_self _, Or.inl hself⟩
  rw [hb, hiff.mpr hall]

end Filter

end RelDoc
