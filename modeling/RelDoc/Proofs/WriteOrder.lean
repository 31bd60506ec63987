import RelDoc.Proofs.RemovedPaths

namespace RelDoc

open RelDoc.Path

/-- The same up to the order of fields, in a document and in the documents below it. -/
inductive Value.Rearranged : Value → Value → Prop
  | same (v : Value) : Rearranged v v
  | document {d e : Document} (keys : d.keys.Perm e.keys)
      (fields : ∀ key v w, d.get? key = some v → e.get? key = some w → Rearranged v w) :
      Rearranged (.document d) (.document e)

abbrev Document.Rearranged (d e : Document) : Prop := Value.Rearranged (.document d) (.document e)

open Document

namespace Value

variable {u v w : Value}

theorem Rearranged.trans (h : Rearranged u v) (h' : Rearranged v w) : Rearranged u w := by
  induction h generalizing w with
  | same v => exact h'
  | @document d e keys fields ih =>
    cases h' with
    | same => exact .document keys fields
    | document keys' fields' =>
      refine .document (keys.trans keys') fun key v w hv hw => ?_
      obtain ⟨x, hx⟩ := exists_get?_of_mem_keys (keys.mem_iff.mp (mem_keys_of_get? hv))
      exact ih key v x hv hx (fields' key x w hx hw)

end Value

namespace Document

variable {p q : List String} {v w : Value} {d e : Document}

theorem Rearranged.keys (h : d.Rearranged e) : d.keys.Perm e.keys := by
  cases h with
  | same => exact .refl _
  | document keys _ => exact keys

theorem Rearranged.fields (h : d.Rearranged e) {key : String} (hv : d.get? key = some v)
    (hw : e.get? key = some w) : v.Rearranged w := by
  cases h with
  | same =>
    obtain rfl := Option.some.inj (hv.symm.trans hw)
    exact .same v
  | document _ fields => exact fields key v w hv hw

theorem Rearranged.get?_cases (h : d.Rearranged e) (key : String) :
    d.get? key = none ∧ e.get? key = none ∨
      ∃ v w, d.get? key = some v ∧ e.get? key = some w ∧ v.Rearranged w := by
  by_cases hkey : key ∈ d.keys
  · obtain ⟨v, hv⟩ := exists_get?_of_mem_keys hkey
    obtain ⟨w, hw⟩ := exists_get?_of_mem_keys (h.keys.mem_iff.mp hkey)
    exact Or.inr ⟨v, w, hv, hw, h.fields hv hw⟩
  · exact Or.inl ⟨get?_of_not_mem hkey, get?_of_not_mem fun hmem => hkey (h.keys.mem_iff.mpr hmem)⟩

theorem Rearranged.insert (h : d.Rearranged e) (key : String) (hvalue : v.Rearranged w) :
    (d.insert key v).Rearranged (e.insert key w) := by
  constructor
  · rw [keys_insert, keys_insert]
    by_cases hkey : key ∈ d.keys
    · rw [if_pos hkey, if_pos (h.keys.mem_iff.mp hkey)]
      exact h.keys
    · rw [if_neg hkey, if_neg fun hmem => hkey (h.keys.mem_iff.mpr hmem)]
      exact h.keys.append_right [key]
  · intro other x y hx hy
    by_cases hother : key = other
    · subst hother
      rw [get?_insert] at hx hy
      rwa [← Option.some.inj hx, ← Option.some.inj hy]
    · rw [get?_insert_of_ne _ _ _ hother] at hx hy
      exact h.fields hx hy

theorem Rearranged.below (h : d.Rearranged e) (key : String) :
    (d.below key).Rearranged (e.below key) := by
  rw [Document.below, Document.below]
  rcases h.get?_cases key with ⟨hd, he⟩ | ⟨v, w, hd, he, hvalue⟩
  · rw [hd, he]
    exact .same _
  · rw [hd, he]
    cases hvalue with
    | same => exact .same _
    | document keys fields => exact .document keys fields

theorem Rearranged.setAt (h : d.Rearranged e) (p : List String) (v : Value) :
    (setAt p v d).Rearranged (setAt p v e) := by
  induction p generalizing d e with
  | nil => exact h
  | cons key rest ih =>
    by_cases hrest : rest = []
    · subst hrest
      exact h.insert key (.same v)
    · rw [setAt_cons key hrest, setAt_cons key hrest]
      exact h.insert key (ih (h.below key))

theorem Rearranged.setEach (h : d.Rearranged e) (fields : List (String × Value)) :
    (d.setEach fields).Rearranged (e.setEach fields) := by
  induction fields generalizing d e with
  | nil => exact h
  | cons field rest ih => exact ih (h.setAt (segments field.1) field.2)

theorem keys_insert_comm {key other : String} (h : key ≠ other) (v w : Value) (d : Document) :
    ((d.insert key v).insert other w).keys.Perm ((d.insert other w).insert key v).keys := by
  simp only [keys_insert]
  by_cases hkey : key ∈ d.keys <;> by_cases hother : other ∈ d.keys <;>
    simp [hkey, hother, h, Ne.symm h]
  exact List.Perm.append_left d.keys (.swap other key [])

theorem get?_insert_comm {key other : String} (h : key ≠ other) (v w : Value) (d : Document)
    (name : String) : ((d.insert key v).insert other w).get? name =
      ((d.insert other w).insert key v).get? name := by
  by_cases hkey : key = name
  · subst hkey
    rw [get?_insert, get?_insert_of_ne _ other w (Ne.symm h), get?_insert]
  · rw [get?_insert_of_ne _ key v hkey]
    by_cases hother : other = name
    · subst hother
      rw [get?_insert, get?_insert]
    · rw [get?_insert_of_ne _ other w hother, get?_insert_of_ne _ other w hother,
        get?_insert_of_ne _ key v hkey]

theorem insert_comm {key other : String} (h : key ≠ other) (v w : Value) (d : Document) :
    ((d.insert key v).insert other w).Rearranged ((d.insert other w).insert key v) := by
  refine .document (keys_insert_comm h v w d) fun name x y hx hy => ?_
  rw [get?_insert_comm h, hy] at hx
  obtain rfl := Option.some.inj hx
  exact .same y

theorem exists_setAt_insert (key : String) (p : List String) (v : Value) (d : Document) :
    ∃ x, ∀ e : Document, e.get? key = d.get? key → setAt (key :: p) v e = e.insert key x := by
  by_cases hp : p = []
  · subst hp
    exact ⟨v, fun _ _ => rfl⟩
  · refine ⟨.document (setAt p v (d.below key)), fun e he => ?_⟩
    rw [setAt_cons key hp, Document.below, he, ← Document.below]

theorem setAt_comm (h : Apart p q) (v w : Value) (d : Document) :
    (setAt q w (setAt p v d)).Rearranged (setAt p v (setAt q w d)) := by
  induction h using Apart.induction generalizing d with
  | part a b p q hab =>
    -- Neither write changes what the other one looks at.
    obtain ⟨x, hx⟩ := exists_setAt_insert a p v d
    obtain ⟨y, hy⟩ := exists_setAt_insert b q w d
    rw [hx d rfl, hy d rfl, hx _ (get?_insert_of_ne d b y (Ne.symm hab)),
      hy _ (get?_insert_of_ne d a x hab)]
    exact insert_comm hab x y d
  | share a p q hrest ih =>
    -- The second write goes on in the document that the first one leaves under the key.
    obtain ⟨hp, hq⟩ := hrest.ne_nil
    simp only [setAt_cons a hp, setAt_cons a hq, below_insert, insert_insert]
    exact Rearranged.insert (.same _) a (ih (d.below a))

theorem setEach_perm {fields more : List (String × Value)} (hperm : fields.Perm more)
    (hapart : fields.Pairwise fun f g => Apart (segments f.1) (segments g.1)) (d : Document) :
    (d.setEach fields).Rearranged (d.setEach more) := by
  induction hperm generalizing d with
  | nil => exact .same _
  | cons field _ ih => exact ih (List.pairwise_cons.mp hapart).2 (d.set field.1 field.2)
  | swap f g rest =>
    have hgf : Apart (segments g.1) (segments f.1) := (List.pairwise_cons.mp hapart).1 f (by simp)
    exact (setAt_comm hgf g.2 f.2 d).setEach rest
  | trans hperm _ ih ih' =>
    exact (ih hapart d).trans (ih' (hperm.pairwise hapart Apart.symm) d)

end Document

namespace Update

theorem editAll_set (fields : List (String × Value)) (d : Document) :
    editAll "$set" fields d = (d.setEach fields, .ok ()) := by
  induction fields generalizing d with
  | nil => rfl
  | cons field rest ih => exact ih (d.set field.1 field.2)

theorem applied_set (fields : List (String × Value)) (d : Document) :
    applied [("$set", .document fields)] d =
      .ok (d.setEach fields, !Document.structEq (d.setEach fields) d) := by
  rw [applied_eq_ok, run, editAll_set]
  exact ⟨rfl, rfl⟩

theorem applied_set_perm {fields more : List (String × Value)} (hperm : fields.Perm more)
    (hapart : fields.Pairwise fun f g => Apart (segments f.1) (segments g.1)) (d : Document) :
    ∃ changed changed', applied [("$set", .document fields)] d = .ok (d.setEach fields, changed) ∧
      applied [("$set", .document more)] d = .ok (d.setEach more, changed') ∧
      (d.setEach fields).Rearranged (d.setEach more) ∧
      ∀ field ∈ fields, (d.setEach fields).lookup field.1 = [field.2] ∧
        (d.setEach more).lookup field.1 = [field.2] := by
  have hmore : more.Pairwise fun f g => Apart (segments f.1) (segments g.1) :=
    hperm.pairwise hapart Apart.symm
  refine ⟨_, _, applied_set fields d, applied_set more d, Document.setEach_perm hperm hapart d,
    fun field hfield => ⟨?_, ?_⟩⟩
  · exact (Document.leadsTo_setEach hapart d field hfield).reach
  · exact (Document.leadsTo_setEach hmore d field (hperm.mem_iff.mp hfield)).reach

theorem applied_set_perm_shared :
    let d : Document := [("a", .int32 5), ("items", .array [.int32 1]), ("c", .document [("z", .null)])]
    let fields : List (String × Value) :=
      [("a.x", .int32 1), ("items.0.qty", .int32 2), ("c.y", .int32 3), ("items.1", .int32 4),
        ("a.y", .int32 5)]
    let after : Document := [("a", .document [("x", .int32 1), ("y", .int32 5)]),
      ("items", .document [("0", .document [("qty", .int32 2)]), ("1", .int32 4)]),
      ("c", .document [("z", .null), ("y", .int32 3)])]
    let after' : Document := [("a", .document [("y", .int32 5), ("x", .int32 1)]),
      ("items", .document [("1", .int32 4), ("0", .document [("qty", .int32 2)])]),
      ("c", .document [("z", .null), ("y", .int32 3)])]
    fields.Perm fields.reverse ∧
      (fields.Pairwise fun f g => Apart (segments f.1) (segments g.1)) ∧
      applied [("$set", .document fields)] d = .ok (after, true) ∧
      applied [("$set", .document fields.reverse)] d = .ok (after', true) ∧
      after.Rearranged after' := by
  intro d fields after after'
  have hapart : fields.Pairwise fun f g => Apart (segments f.1) (segments g.1) := by
    unfold Apart
    decide
  have hperm : fields.Perm fields.reverse := fields.reverse_perm.symm
  obtain ⟨_, _, -, -, hsame, -⟩ := applied_set_perm hperm hapart d
  exact ⟨hperm, hapart, rfl, rfl, hsame⟩

end Update

end RelDoc
