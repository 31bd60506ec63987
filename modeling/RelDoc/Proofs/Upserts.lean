import RelDoc.Proofs.CompletedUpdates
import RelDoc.Proofs.FieldConditions

namespace RelDoc

open RelDoc.Path

namespace Collection

open RelDoc.Filter RelDoc.Document

variable {filter operations options : Document} {docs : List Document} {c : Collection}

def withIdentifier (n : Nat) (d : Document) : Document :=
  if d.contains "_id" then d else ("_id", .objectId (.generated n)) :: d

theorem withIdentifier_of_get? (n : Nat) {d : Document} {id : Value} (h : d.get? "_id" = some id) :
    withIdentifier n d = d :=
  if_pos (contains_of_get? h)

theorem get?_withIdentifier_of_ne (n : Nat) (d : Document) {key : String} (h : key ≠ "_id") :
    (withIdentifier n d).get? key = d.get? key := by
  rw [withIdentifier]
  split
  · rfl
  · exact if_neg h.symm

theorem leadsTo_withIdentifier (n : Nat) {v : Value} {p : List String} {d : Document}
    (h : LeadsTo v p d) : LeadsTo v p (withIdentifier n d) := by
  rcases p with _ | ⟨key, rest⟩
  · exact h.elim
  · apply h.congr
    by_cases hkey : key = "_id"
    · subst hkey
      obtain ⟨id, hid⟩ := h.exists_get?
      rw [withIdentifier_of_get? n hid]
    · exact get?_withIdentifier_of_ne n d hkey

theorem store_withIdentifier (c : Collection) (d : Document) : ∃ id handedOut,
    c.store d = ({ c with documents := c.documents ++ [withIdentifier c.handedOut d], handedOut }, id) ∧
      (withIdentifier c.handedOut d).get? "_id" = some id := by
  rw [store, withIdentifier, contains]
  rcases hid : d.get? "_id" with _ | id
  · exact ⟨_, _, rfl, rfl⟩
  · exact ⟨id, c.handedOut, rfl, hid⟩

theorem sweep_of_none_holds {multiple : Bool} (h : ∀ d ∈ docs, holds d filter = .ok false) :
    sweep filter operations multiple docs = (⟨docs, 0, 0⟩, .ok ()) := by
  induction docs with
  | nil => rfl
  | cons d rest ih =>
    obtain ⟨hd, hrest⟩ := List.forall_mem_cons.mp h
    rw [sweep, hd, ih hrest]

theorem none_holds_of_sweep {multiple : Bool}
    (h : (sweep filter operations multiple docs).2 = .ok ())
    (hnone : ∀ d ∈ docs, passes d filter = false) : ∀ d ∈ docs, holds d filter = .ok false := by
  induction docs with
  | nil => simp
  | cons d rest ih =>
    obtain ⟨hd, hrest⟩ := List.forall_mem_cons.mp hnone
    rw [List.forall_mem_cons]
    rw [sweep] at h
    rcases hholds : holds d filter with e | _ | _
    · rw [hholds] at h
      cases h
    · rw [hholds] at h
      exact ⟨rfl, ih h hrest⟩
    · rw [passes_of_holds d hholds] at hd
      cases hd

theorem run_upsert (operations : Document) (honline : c.online = true)
    (hupsert : flag options "upsert" false = true)
    (hnone : ∀ d ∈ c.documents, holds d filter = .ok false) :
    c.run (.update filter operations options) =
      match Update.applied operations (seedFields filter []) with
      | .error e => (.error e, c)
      | .ok (after, _) =>
        (.ok (c.confirm ⟨true, 0, 0, 1, some (c.store after).2⟩), (c.store after).1) := by
  rw [run, if_pos honline, perform, updateMany, sweep_of_none_holds hnone]
  simp only [hupsert, and_self, if_true]
  rcases Update.applied operations (seedFields filter []) with e | ⟨after, changed⟩
  · rfl
  · obtain ⟨id, handedOut, hstore, -⟩ := c.store_withIdentifier after
    simp only [hstore]
    rfl

theorem run_upsert_ok (hupsert : flag options "upsert" false = true)
    (hnone : ∀ d ∈ c.documents, passes d filter = false) {report : UpdateReport}
    (h : (c.run (.update filter operations options)).1 = .ok report) : ∃ after changed,
      Update.applied operations (seedFields filter []) = .ok (after, changed) ∧
        (c.run (.update filter operations options)).2.documents =
          c.documents ++ [withIdentifier c.handedOut after] := by
  have honline : c.online = true := online_of_run_ok h
  have hsweep : (sweep filter operations (flag options "multiple" true) c.documents).2 = .ok () := by
    rw [run, if_pos honline, perform, updateMany] at h
    rcases hs : sweep filter operations (flag options "multiple" true) c.documents with
      ⟨s, e | ⟨⟩⟩
    · rw [hs] at h
      cases h
    · rfl
  have hrun := run_upsert operations honline hupsert (none_holds_of_sweep hsweep hnone)
  rcases happlied : Update.applied operations (seedFields filter []) with e | ⟨after, changed⟩
  · rw [hrun, happlied] at h
    cases h
  · obtain ⟨id, handedOut, hstore, -⟩ := c.store_withIdentifier after
    refine ⟨after, changed, rfl, ?_⟩
    simp only [hrun, happlied, hstore]

theorem run_update_last {stored : Document} (honline : c.online = true)
    (hmultiple : flag options "multiple" true = true) (hdocs : c.documents = docs ++ [stored])
    (hfails : ∀ d ∈ docs, passes d filter = false) (hpass : passes stored filter = true)
    {report : UpdateReport} (h : (c.run (.update filter operations options)).1 = .ok report) :
    (c.run (.update filter operations options)).2.documents =
        docs ++ [settled filter operations stored] ∧
      (c.acknowledged = true → ∃ modified, report = ⟨true, 1, modified, 0, none⟩) := by
  have hfound : (docs ++ [stored]).filter (passes · filter) = [stored] := by
    have hothers : docs.filter (passes · filter) = [] := by
      rw [List.filter_eq_nil_iff]
      intro d hd
      rw [hfails d hd]
      exact Bool.false_ne_true
    rw [List.filter_append, hothers, List.filter_singleton, hpass]
    rfl
  have hkept : docs.map (settled filter operations) = docs := by
    rw [List.map_congr_left fun d hd => settled_of_not_passes (hfails d hd), List.map_id']
  obtain ⟨-, hafter, hconfirmed⟩ := run_update_settles honline hmultiple
    (fun _ => ⟨stored, by simp [hdocs], hpass⟩) h
  rw [hdocs, hfound] at hconfirmed
  refine ⟨?_, hconfirmed⟩
  rw [hafter]
  change c.documents.map (settled filter operations) = _
  rw [hdocs, List.map_append, hkept]
  rfl

section conjunction

variable {conditions : List (String × Value)}

theorem holds_upserted (hfilter : Conjunction filter conditions)
    (hvalues : ∀ cond ∈ conditions, cond.2.isOperand = true ∧ cond.2.isNanFree = true)
    (hpaths : conditions.Pairwise fun f g => Apart (segments f.1) (segments g.1))
    (hedits : ∀ edit ∈ Update.edits operations, ∀ cond ∈ conditions,
      Apart (segments edit.2) (segments cond.1)) {after : Document} {changed : Bool}
    (happlied : Update.applied operations (seedFields filter []) = .ok (after, changed)) (n : Nat) :
    holds (withIdentifier n after) filter = .ok true := by
  apply hfilter.holds_of_leadsTo hvalues
  intro cond hcond
  apply leadsTo_withIdentifier
  apply Update.leadsTo_applied (fun edit hedit => hedits edit hedit cond hcond) happlied
  rw [hfilter.seedFields_eq fun cond h => (hvalues cond h).1]
  exact leadsTo_setEach hpaths [] cond hcond

theorem upsert_once (honline : c.online = true) (hack : c.acknowledged = true)
    (hfilter : Conjunction filter conditions)
    (hvalues : ∀ cond ∈ conditions, cond.2.isOperand = true ∧ cond.2.isNanFree = true)
    (hpaths : conditions.Pairwise fun f g => Apart (segments f.1) (segments g.1))
    (hedits : ∀ edit ∈ Update.edits operations, ∀ cond ∈ conditions,
      Apart (segments edit.2) (segments cond.1))
    (hnone : ∀ d ∈ c.documents, holds d filter ≠ .ok true)
    (happlies : ∃ result, Update.applied operations (seedFields filter []) = .ok result) :
    let upsert := Command.update filter operations [("upsert", .boolean true)]
    ∃ stored id, (c.run upsert).1 = .ok ⟨true, 0, 0, 1, some id⟩ ∧
      (c.run upsert).2.documents = c.documents ++ [stored] ∧ stored.get? "_id" = some id ∧
      holds stored filter = .ok true ∧
      ∀ report, ((c.run upsert).2.run upsert).1 = .ok report →
        (∃ modified, report = ⟨true, 1, modified, 0, none⟩) ∧
        ((c.run upsert).2.run upsert).2.documents =
          c.documents ++ [settled filter operations stored] := by
  intro upsert
  obtain ⟨⟨after, changed⟩, happlied⟩ := happlies
  have hfalse : ∀ d ∈ c.documents, holds d filter = .ok false := fun d hd =>
    hfilter.false_of_not_true (fun cond h => (hvalues cond h).1) (hnone d hd)
  have hupsert : flag [("upsert", .boolean true)] "upsert" false = true := rfl
  have hrun := run_upsert operations honline hupsert hfalse
  obtain ⟨id, handedOut, hstore, hid⟩ := c.store_withIdentifier after
  simp only [happlied, hstore] at hrun
  have hholds := holds_upserted hfilter hvalues hpaths hedits happlied c.handedOut
  refine ⟨withIdentifier c.handedOut after, id, ?_, ?_, hid, hholds, ?_⟩
  · rw [hrun, confirm, if_pos hack]
  · rw [hrun]
  · intro report hreport
    rw [hrun] at hreport ⊢
    obtain ⟨hafter, hconfirmed⟩ := run_update_last
      (c := { c with documents := c.documents ++ [withIdentifier c.handedOut after], handedOut })
      honline rfl rfl (fun d hd => passes_of_holds d (hfalse d hd)) (passes_of_holds _ hholds) hreport
    exact ⟨hconfirmed hack, hafter⟩

theorem upsert_once_nested :
    let city : Document := [("city", .string "Oslo")]
    let tags : Document := [("info.tags", .array [.string "a", .null])]
    let filter : Document := [("_id", .int32 7), ("$and", .array [.document city, .document tags])]
    let conditions : List (String × Value) := [("_id", .int32 7), ("city", .string "Oslo"),
      ("info.tags", .array [.string "a", .null])]
    let operations : Document := [("$inc", .document [("info.visits", .int32 1)])]
    let upsert := Command.update filter operations [("upsert", .boolean true)]
    let c : Collection := { empty "people" true with documents := [[("_id", .int32 1)]] }
    Conjunction filter conditions ∧
      (∀ cond ∈ conditions, cond.2.isOperand = true ∧ cond.2.isNanFree = true) ∧
      conditions.Pairwise (fun f g => Apart (segments f.1) (segments g.1)) ∧
      (∀ edit ∈ Update.edits operations, ∀ cond ∈ conditions,
        Apart (segments edit.2) (segments cond.1)) ∧
      (∀ d ∈ c.documents, holds d filter ≠ .ok true) ∧
      (c.run upsert).1 = .ok ⟨true, 0, 0, 1, some (.int32 7)⟩ ∧
      ∃ stored, (c.run upsert).2.documents = c.documents ++ [stored] ∧
        holds stored filter = .ok true := by
  intro city tags filter conditions operations upsert c
  have hfilter : Conjunction filter conditions := by
    have hcity : Conjunction city [("city", .string "Oslo")] := .field rfl .nil
    have htags : Conjunction tags [("info.tags", .array [.string "a", .null])] := .field rfl .nil
    exact .field rfl (.listItem hcity (.listItem htags (.listEnd .nil)))
  have hvalues : ∀ cond ∈ conditions, cond.2.isOperand = true ∧ cond.2.isNanFree = true := by
    simp [conditions, Value.isOperand, Value.isNanFree, Value.itemsNanFree]
  have hpaths : conditions.Pairwise fun f g => Apart (segments f.1) (segments g.1) := by
    unfold Apart
    simp only [conditions, List.pairwise_cons]
    decide
  have hedits : ∀ edit ∈ Update.edits operations, ∀ cond ∈ conditions,
      Apart (segments edit.2) (segments cond.1) := by
    have hedit : Update.edits operations = [("$inc", "info.visits")] := rfl
    unfold Apart
    simp only [hedit, conditions, List.forall_mem_cons]
    decide
  have hnone : ∀ d ∈ c.documents, holds d filter ≠ .ok true := by
    intro d hd
    obtain rfl := List.mem_singleton.mp hd
    have hother : holds [("_id", .int32 1)] filter = .ok false := rfl
    rw [hother]
    rintro ⟨⟩
  obtain ⟨stored, id, hreport, hdocuments, -, hholds, -⟩ := upsert_once (c := c) rfl rfl hfilter hvalues
    hpaths hedits hnone ⟨_, rfl⟩
  exact ⟨hfilter, hvalues, hpaths, hedits, hnone, rfl, stored, hdocuments, hholds⟩

end conjunction

end Collection

end RelDoc
