import RelDoc.Proofs.UpdateReadBack

namespace RelDoc

theorem Value.structEq_self {v : Value} (hnan : v.isNanFree = true) (hkeys : v.keysDistinct = true) :
    v.structEq v = true := by
  induction v using shapeInduction with
  | scalar v hv =>
    cases v <;> first
      | exact hnan
      | simp [structEq]; done
      | simp [isScalar] at hv
  | array items ih =>
    rw [isNanFree, itemsNanFree_iff] at hnan
    rw [keysDistinct, itemsKeysDistinct_iff] at hkeys
    rw [structEq_array, List.forall₂_same]
    exact fun v hv => ih v hv (hnan v hv) (hkeys v hv)
  | document fields ih =>
    rw [isNanFree, fieldsNanFree_iff] at hnan
    rw [keysDistinct, Bool.and_eq_true, decide_eq_true_iff, fieldsKeysDistinct_iff] at hkeys
    refine structEq_document.mpr ⟨rfl, fun field hfield => ⟨field.2, ?_, ?_⟩⟩
    · exact Document.get?_of_mem hkeys.1 hfield
    · exact ih field hfield (hnan field hfield) (hkeys.2 field hfield)

def Document.IsRegular (d : Document) : Prop :=
  (Value.document d).isNanFree = true ∧ (Value.document d).keysDistinct = true

theorem Document.IsRegular.structEq_self {d : Document} (h : d.IsRegular) : structEq d d = true :=
  Value.structEq_self h.1 h.2

namespace Collection

open RelDoc.Filter

variable {filter operations options : Document} {multiple : Bool} {docs after : List Document}

def Chosen (filter : Document) (multiple : Bool) (docs : List Document) (i : Nat) : Prop :=
  ∃ d, docs[i]? = some d ∧ passes d filter = true ∧
    (multiple = false → ∀ e ∈ docs.take i, passes e filter = false)

theorem chosen_zero (d : Document) : Chosen filter multiple (d :: docs) 0 ↔ passes d filter = true := by
  simp [Chosen]

theorem chosen_succ (d : Document) (i : Nat) : Chosen filter multiple (d :: docs) (i + 1) ↔
    (multiple = false → passes d filter = false) ∧ Chosen filter multiple docs i := by
  simp only [Chosen, List.getElem?_cons_succ, List.take_succ_cons, List.forall_mem_cons]
  constructor
  · rintro ⟨e, he, hpass, hfirst⟩
    exact ⟨fun h => (hfirst h).1, e, he, hpass, fun h => (hfirst h).2⟩
  · rintro ⟨hd, e, he, hpass, hfirst⟩
    exact ⟨e, he, hpass, fun h => ⟨hd h, hfirst h⟩⟩

def Turned (operations d now : Document) : Prop :=
  ∃ next changed, Update.applied operations d = .ok (next, changed) ∧
    now = if changed then next else d

/-- At the places that are taken the update is done with the document, at the others there is the
document from before. -/
def Carried (taken : Nat → Prop) (operations : Document) (docs after : List Document) : Prop :=
  ∀ i d, docs[i]? = some d → ∃ now, after[i]? = some now ∧
    (taken i → Turned operations d now) ∧ (¬taken i → now = d)

theorem carried_cons {taken : Nat → Prop} {d now : Document}
    (htaken : taken 0 → Turned operations d now) (hother : ¬taken 0 → now = d)
    (h : Carried (fun i => taken (i + 1)) operations docs after) :
    Carried taken operations (d :: docs) (now :: after) := by
  rintro (_ | i) e he
  · obtain rfl := Option.some.inj he
    exact ⟨now, rfl, htaken, hother⟩
  · exact h i e he

theorem carried_cons_of_passes {d next : Document} {changed : Bool} (hpass : passes d filter = true)
    (happlied : Update.applied operations d = .ok (next, changed))
    (h : Carried (fun i => Chosen filter multiple (d :: docs) (i + 1)) operations docs after) :
    Carried (Chosen filter multiple (d :: docs)) operations (d :: docs)
      ((if changed then next else d) :: after) := by
  apply carried_cons
  · exact fun _ => ⟨next, changed, happlied, rfl⟩
  · exact fun hother => absurd ((chosen_zero d).mpr hpass) hother
  · exact h

theorem carried_self {taken : Nat → Prop} (h : ∀ i, ¬taken i) : Carried taken operations docs docs :=
  fun i d hd => ⟨d, hd, fun hi => absurd hi (h i), fun _ => rfl⟩

theorem Carried.congr {taken taken' : Nat → Prop} (h : Carried taken operations docs after)
    (heq : ∀ i, taken' i ↔ taken i) : Carried taken' operations docs after := by
  intro i d hd
  obtain ⟨now, hnow, htaken, hother⟩ := h i d hd
  exact ⟨now, hnow, fun hi => htaken ((heq i).mp hi), fun hi => hother fun h => hi ((heq i).mpr h)⟩

theorem Carried.append {taken : Nat → Prop} (h : Carried taken operations docs after)
    (added : List Document) : Carried taken operations docs (after ++ added) := by
  intro i d hd
  obtain ⟨now, hnow, hplace⟩ := h i d hd
  refine ⟨now, ?_, hplace⟩
  rw [List.getElem?_append_left (List.getElem?_eq_some_iff.mp hnow).1, hnow]

def changes (before after : List Document) : Nat :=
  (before.zip after).countP fun p => !Document.structEq p.2 p.1

theorem changes_cons (d now : Document) : changes (d :: docs) (now :: after) =
    changes docs after + if Document.structEq now d then 0 else 1 := by
  rw [changes, List.zip_cons_cons, List.countP_cons]
  cases Document.structEq now d <;> rfl

theorem changes_self (h : ∀ d ∈ docs, Document.structEq d d = true) : changes docs docs = 0 := by
  induction docs with
  | nil => rfl
  | cons d rest ih =>
    obtain ⟨hd, hrest⟩ := List.forall_mem_cons.mp h
    rw [changes_cons, ih hrest, if_pos hd]

theorem changes_append (hlength : after.length = docs.length) (added : List Document) :
    changes docs (after ++ added) = changes docs after := by
  rw [changes, changes, ← List.append_nil docs, List.zip_append hlength.symm, List.zip_nil_left,
    List.append_nil, List.append_nil]

def passing (filter : Document) (docs : List Document) : Nat := docs.countP (passes · filter)

theorem passing_cons (d : Document) : passing filter (d :: docs) =
    passing filter docs + if passes d filter then 1 else 0 := List.countP_cons

theorem changed_of_applied {d next : Document} {changed : Bool}
    (hd : Document.structEq d d = true)
    (happlied : Update.applied operations d = .ok (next, changed)) :
    (if Document.structEq (if changed then next else d) d then 0 else 1) =
      if changed then 1 else 0 := by
  obtain ⟨-, rfl⟩ := Update.applied_eq_ok.mp happlied
  cases h : Document.structEq next d
  · simp [h]
  · simp [hd]

structure Swept (filter operations : Document) (multiple : Bool) (docs : List Document) (s : Sweep) :
    Prop where
  carried : Carried (Chosen filter multiple docs) operations docs s.documents
  length : s.documents.length = docs.length
  matched : s.matched = if multiple then passing filter docs else min (passing filter docs) 1
  modified : s.modified = changes docs s.documents
  modified_le : s.modified ≤ s.matched

theorem Swept.pass_over {s : Sweep} {d : Document} (h : Swept filter operations multiple docs s)
    (hpass : passes d filter = false) (hd : Document.structEq d d = true) :
    Swept filter operations multiple (d :: docs) { s with documents := d :: s.documents } where
  carried := by
    apply carried_cons
    · rw [chosen_zero, hpass]
      exact fun h => absurd h Bool.false_ne_true
    · exact fun _ => rfl
    · exact h.carried.congr fun i => (chosen_succ d i).trans (and_iff_right fun _ => hpass)
  length := congrArg Nat.succ h.length
  matched := by
    rw [passing_cons, hpass]
    exact h.matched
  modified := by
    change s.modified = _
    rw [changes_cons, if_pos hd, h.modified, Nat.add_zero]
  modified_le := h.modified_le

theorem Swept.take {s : Sweep} {d next : Document} {changed : Bool}
    (h : Swept filter operations true docs s) (hpass : passes d filter = true)
    (hd : Document.structEq d d = true)
    (happlied : Update.applied operations d = .ok (next, changed)) :
    Swept filter operations true (d :: docs) ⟨(if changed then next else d) :: s.documents,
      s.matched + 1, s.modified + if changed then 1 else 0⟩ where
  carried := by
    apply carried_cons_of_passes hpass happlied
    exact h.carried.congr fun i => (chosen_succ d i).trans (and_iff_right nofun)
  length := congrArg Nat.succ h.length
  matched := by
    rw [passing_cons, hpass]
    exact congrArg Nat.succ h.matched
  modified := by rw [changes_cons, changed_of_applied hd happlied, h.modified]
  modified_le := by
    have hone : (if changed then 1 else 0) ≤ 1 := by cases changed <;> decide
    exact Nat.add_le_add h.modified_le hone

theorem swept_first {d next : Document} {changed : Bool} (hpass : passes d filter = true)
    (hself : ∀ e ∈ d :: docs, Document.structEq e e = true)
    (happlied : Update.applied operations d = .ok (next, changed)) :
    Swept filter operations false (d :: docs)
      ⟨(if changed then next else d) :: docs, 1, if changed then 1 else 0⟩ where
  carried := by
    apply carried_cons_of_passes hpass happlied
    apply carried_self
    intro i hchosen
    have hnone := ((chosen_succ d i).mp hchosen).1 rfl
    rw [hpass] at hnone
    cases hnone
  length := rfl
  matched := by
    rw [passing_cons, hpass]
    exact (Nat.min_eq_right (Nat.le_add_left 1 _)).symm
  modified := by
    obtain ⟨hd, hdocs⟩ := List.forall_mem_cons.mp hself
    rw [changes_cons, changed_of_applied hd happlied, changes_self hdocs, Nat.zero_add]
  modified_le := by cases changed <;> simp

theorem swept_of_sweep {s : Sweep} (hself : ∀ d ∈ docs, Document.structEq d d = true)
    (h : sweep filter operations multiple docs = (s, .ok ())) :
    Swept filter operations multiple docs s := by
  induction docs generalizing s with
  | nil =>
    obtain ⟨rfl, -⟩ := Prod.mk.inj h
    refine ⟨nofun, rfl, ?_, rfl, Nat.le_refl 0⟩
    cases multiple <;> rfl
  | cons d rest ih =>
    obtain ⟨hd, hrest⟩ := List.forall_mem_cons.mp hself
    rw [sweep] at h
    rcases hholds : holds d filter with e | _ | _
    · rw [hholds] at h
      cases h
    · rw [hholds] at h
      obtain ⟨rfl, hout⟩ := Prod.mk.inj h
      exact (ih hrest (Prod.ext rfl hout)).pass_over (passes_of_holds d hholds) hd
    · have hpass : passes d filter = true := passes_of_holds d hholds
      rcases happlied : Update.applied operations d with e | ⟨next, changed⟩
      · simp only [hholds, happlied] at h
        cases h
      · simp only [hholds, happlied] at h
        cases multiple with
        | true =>
          obtain ⟨rfl, hout⟩ := Prod.mk.inj h
          exact (ih hrest (Prod.ext rfl hout)).take hpass hd happlied
        | false =>
          obtain ⟨rfl, -⟩ := Prod.mk.inj h
          exact swept_first hpass hself happlied

structure Accounts (filter operations options : Document) (before after : List Document)
    (report : UpdateReport) : Prop where
  carried : Carried (Chosen filter (flag options "multiple" true) before) operations before after
  matched : report.matched =
    if flag options "multiple" true then passing filter before else min (passing filter before) 1
  modified : report.modified = changes before after
  modified_le : report.modified ≤ report.matched
  upserted : report.upserted =
    if flag options "upsert" false = true ∧ passing filter before = 0 then 1 else 0
  length : after.length = before.length + report.upserted

theorem Accounts.affected {before : List Document} {report : UpdateReport}
    (h : Accounts filter operations options before after report)
    (hack : report.acknowledged = true) :
    report.affected = changes before after + (after.length - before.length) := by
  have hgrown : after.length - before.length = report.upserted := by
    rw [h.length, Nat.add_sub_cancel_left]
  rw [hgrown, ← h.modified, UpdateReport.affected, hack]
  change (if 0 < report.modified then report.modified else report.upserted) = _
  split
  case isTrue hmodified =>
    -- Where something was modified something has passed, and nothing was added.
    have hsome : passing filter before ≠ 0 := by
      intro hnone
      have hmatched : report.matched = 0 := by
        rw [h.matched, hnone]
        split <;> rfl
      have hle := h.modified_le
      omega
    rw [h.upserted, if_neg fun hadds => hsome hadds.2, Nat.add_zero]
  case isFalse hunmodified => omega

theorem Swept.accounts {s : Sweep} (h : Swept filter operations (flag options "multiple" true) docs s)
    {added : List Document} (hadded : added.length =
      if flag options "upsert" false = true ∧ passing filter docs = 0 then 1 else 0)
    (id : Option Value) : Accounts filter operations options docs (s.documents ++ added)
      ⟨true, s.matched, s.modified, added.length, id⟩ where
  carried := h.carried.append added
  matched := h.matched
  modified := h.modified.trans (changes_append h.length added).symm
  modified_le := h.modified_le
  upserted := hadded
  length := by rw [List.length_append, h.length]

theorem run_update_accounts {c : Collection} (hack : c.acknowledged = true)
    (hself : ∀ d ∈ c.documents, Document.structEq d d = true) {report : UpdateReport}
    (h : (c.run (.update filter operations options)).1 = .ok report) :
    report.acknowledged = true ∧ Accounts filter operations options c.documents
      (c.run (.update filter operations options)).2.documents report := by
  have honline : c.online = true := online_of_run_ok h
  rw [run, if_pos honline, perform, updateMany] at h ⊢
  rcases hs : sweep filter operations (flag options "multiple" true) c.documents with ⟨s, e | ⟨⟩⟩
  · rw [hs] at h
    cases h
  · have hswept := swept_of_sweep hself hs
    have hzero : s.matched = 0 ↔ passing filter c.documents = 0 := by
      rw [hswept.matched]
      split <;> omega
    rw [hs] at h
    by_cases hadds : s.matched = 0 ∧ flag options "upsert" false = true
    · obtain ⟨hnone, hupsert⟩ := hadds
      have hunmodified : s.modified = 0 := by
        have hle := hswept.modified_le
        omega
      simp only [hnone, hupsert, and_self, if_true] at h ⊢
      rcases hseed : Update.applied operations (seedFields filter []) with e | ⟨seed, changed⟩
      · rw [hseed] at h
        cases h
      · obtain ⟨stored, id, handedOut, hstore, -⟩ :=
          { c with documents := s.documents }.store_eq seed
        simp only [hseed, hstore] at h ⊢
        rw [confirm, if_pos hack] at h
        obtain rfl := Except.ok.inj h
        have hone : [stored].length =
            if flag options "upsert" false = true ∧ passing filter c.documents = 0 then 1 else 0 :=
          (if_pos ⟨hupsert, hzero.mp hnone⟩).symm
        have haccounts := hswept.accounts hone (some id)
        rw [hnone, hunmodified] at haccounts
        exact ⟨rfl, haccounts⟩
    · have hadded : ([] : List Document).length =
          if flag options "upsert" false = true ∧ passing filter c.documents = 0 then 1 else 0 :=
        (if_neg fun h => hadds ⟨hzero.mpr h.2, h.1⟩).symm
      simp only [if_neg hadds] at h ⊢
      rw [confirm, if_pos hack] at h
      obtain rfl := Except.ok.inj h
      have haccounts := hswept.accounts hadded none
      rw [List.append_nil] at haccounts
      exact ⟨rfl, haccounts⟩

end Collection

namespace Query

open Collection

theorem run_mutate_affected {q : Query} {mutation : Mutation} {m : Metered} {n : Nat}
    (hack : m.collection.acknowledged = true)
    (hself : ∀ d ∈ m.collection.documents, Document.structEq d d = true)
    (h : ((q.mutate mutation).run m).1 = .ok n) :
    let before := m.collection.documents
    let after := ((q.mutate mutation).run m).2.collection.documents
    n = changes before after + (after.length - before.length) := by
  obtain ⟨scope, report, hscope, hreport, hafter⟩ := run_mutate_ok h
  obtain ⟨hanswer, -⟩ := run_mutate hscope m
  obtain ⟨hconfirmed, haccounts⟩ := run_update_accounts hack hself hreport
  rw [hanswer, hreport] at h
  rw [hafter]
  exact (Except.ok.inj h).symm.trans (haccounts.affected hconfirmed)

theorem updates_accounted {m : Metered} (hack : m.collection.acknowledged = true)
    (hdocs : ∀ d ∈ m.collection.documents, d.IsRegular) :
    (∀ filter operations options report,
      (m.collection.run (.update filter operations options)).1 = .ok report →
        Accounts filter operations options m.collection.documents
          (m.collection.run (.update filter operations options)).2.documents report) ∧
    ∀ (q : Query) (l : Literal) (n : Nat), ((q.update l).run m).1 = .ok n →
      let before := m.collection.documents
      let after := ((q.update l).run m).2.collection.documents
      n = changes before after + (after.length - before.length) := by
  have hself : ∀ d ∈ m.collection.documents, Document.structEq d d = true :=
    fun d hd => (hdocs d hd).structEq_self
  refine ⟨fun filter operations options report h => (run_update_accounts hack hself h).2, ?_⟩
  intro q l n h
  rcases hmutation : Mutation.update l with e | mutation
  · rw [update, hmutation] at h
    cases h
  · rw [update, hmutation] at h ⊢
    exact run_mutate_affected hack hself h

theorem updates_accounted_stock :
    let item (id n : Int32) : Document := [("_id", .int32 id), ("n", .int32 n)]
    let c : Collection := { Collection.empty "stock" true with
      documents := [item 1 2, item 2 5, item 3 5] }
    let filter : Document := [("n", .int32 5)]
    let operations : Document := [("$set", .document [("n", .int32 2)])]
    let one : Document := [("multiple", .boolean false)]
    let q : Query := ⟨Plan.empty, .standard, []⟩
    c.acknowledged = true ∧ (∀ d ∈ c.documents, d.IsRegular) ∧
      (∃ report, (c.run (.update filter operations one)).1 = .ok report ∧
        Accounts filter operations one c.documents [item 1 2, item 2 2, item 3 5] report) ∧
      ((q.update (.map [("n", .integer 5)])).run (.ofCollection c)).1 = .ok 1 := by
  intro item c filter operations one q
  have hdocs : ∀ d ∈ c.documents, d.IsRegular := by
    simp only [Document.IsRegular]
    decide
  obtain ⟨haccounts, hcount⟩ := updates_accounted (m := .ofCollection c) rfl hdocs
  refine ⟨rfl, hdocs, ⟨_, rfl, haccounts filter operations one _ rfl⟩, ?_⟩
  rcases h : ((q.update (.map [("n", .integer 5)])).run (.ofCollection c)).1 with e | n
  · cases h
  · exact congrArg Except.ok (hcount q _ n h)

end Query

end RelDoc
