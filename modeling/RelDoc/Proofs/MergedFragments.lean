import Mathlib.Data.List.Induction
import RelDoc.Plan.Scope
import RelDoc.Proofs.FilterEvaluation

namespace RelDoc.Constraints

theorem keys_add (cs : Constraints) (key : String) (c : Constraint) :
    (cs.add key c).map Prod.fst =
      if key ∈ cs.map Prod.fst then cs.map Prod.fst else cs.map Prod.fst ++ [key] := by
  induction cs with
  | nil => simp [add]
  | cons entry rest ih =>
    obtain ⟨k, old⟩ := entry
    by_cases hk : k = key
    · simp [add, hk]
    · simp only [add, hk, if_false, List.map_cons, ih, List.mem_cons, Ne.symm hk, false_or]
      split <;> rfl

theorem nodup_keys_add {cs : Constraints} (h : (cs.map Prod.fst).Nodup) (key : String)
    (c : Constraint) : ((cs.add key c).map Prod.fst).Nodup := by
  rw [keys_add]
  split
  · exact h
  · rename_i hkey
    exact List.nodup_append.mpr ⟨h, by simp, by rintro k hk _ hk' rfl; simp_all⟩

theorem nodup_keys_merge {cs : Constraints} (h : (cs.map Prod.fst).Nodup) (fragment : Document) :
    ((cs.merge fragment).map Prod.fst).Nodup := by
  induction fragment generalizing cs with
  | nil => exact h
  | cons field rest ih => exact ih (nodup_keys_add h field.1 _)

theorem keys_toDocument (cs : Constraints) : cs.toDocument.keys = cs.map Prod.fst := by
  simp [toDocument, Document.keys]

theorem add_of_notMem {cs : Constraints} {key : String} (h : key ∉ cs.map Prod.fst) (c : Constraint) :
    cs.add key c = cs ++ [(key, c)] := by
  induction cs with
  | nil => rfl
  | cons entry rest ih =>
    simp only [List.map_cons, List.mem_cons, not_or] at h
    simp [add, Ne.symm h.1, ih h.2]

theorem merge_of_disjoint (cs : Constraints) (fragment : Document)
    (h : (cs.map Prod.fst ++ fragment.keys).Nodup) :
    cs.merge fragment =
      cs ++ fragment.map fun field => (field.1, Constraint.ofField field.1 field.2) := by
  induction fragment generalizing cs with
  | nil => simp
  | cons field rest ih =>
    have hkey : field.1 ∉ cs.map Prod.fst := by
      intro hmem
      exact (List.nodup_append.mp h).2.2 _ hmem _ (by simp [Document.keys]) rfl
    change (cs.add field.1 _).merge rest = _
    rw [add_of_notMem hkey, ih, List.map_cons, List.append_assoc, List.singleton_append]
    simpa [Document.keys] using h

end RelDoc.Constraints

namespace RelDoc.Scope

theorem toDocument_merge_nil {f : Document} (h : f.keys.Nodup) :
    (Constraints.merge [] f).toDocument =
      f.map fun field => (field.1, (Constraint.ofField field.1 field.2).toValue) := by
  rw [Constraints.merge_of_disjoint [] f (by simpa using h), List.nil_append]
  simp [Constraints.toDocument]

theorem entryHolds_ofField {doc : Document} {key : String} {v : Value} {b : Bool}
    (h : Filter.entryHolds doc key v = .ok b) :
    Filter.entryHolds doc key (Constraint.ofField key v).toValue = .ok b := by
  by_cases hkey : key = "$and" ∨ key = "$or"
  · obtain ⟨items, rfl⟩ := Filter.entryHolds_list_key doc hkey h
    simpa [Constraint.ofField, hkey, Constraint.toValue, Value.asArray?] using h
  · simpa [Constraint.ofField, hkey, Constraint.toValue] using h

theorem holds_merge_nil {doc f : Document} (hf : f.keys.Nodup) {b : Bool}
    (h : Filter.holds doc f = .ok b) :
    Filter.holds doc (Constraints.merge [] f).toDocument = .ok b := by
  rw [toDocument_merge_nil hf]
  clear hf
  induction f with
  | nil => exact h
  | cons field rest ih =>
    obtain ⟨key, v⟩ := field
    rw [Filter.holds_cons] at h
    rw [List.map_cons, Filter.holds_cons]
    rcases hv : Filter.entryHolds doc key v with e | c
    · rw [hv] at h; exact absurd h (by simp [Except.bind])
    · rw [hv] at h
      rw [entryHolds_ofField hv]
      cases c
      · exact h
      · exact ih h

def otherJoin : Join → Join
  | .and => .or
  | .or => .and

def collected (join : Join) (fs : List Fragment) : List Document :=
  (fs.filter fun f => f.1 = join).map Prod.snd

def listed (join : Join) (fs : List Fragment) : Constraints :=
  if collected join fs = [] then []
  else [(listKey join, .many ((collected join fs).map .document))]

def lists : List Fragment → Constraints
  | [] => []
  | f :: rest => listed f.1 (f :: rest) ++ listed (otherJoin f.1) (f :: rest)

theorem collected_append (join : Join) (fs gs : List Fragment) :
    collected join (fs ++ gs) = collected join fs ++ collected join gs := by
  simp [collected]

theorem mem_collected {join : Join} {fs : List Fragment} {d : Document} :
    d ∈ collected join fs ↔ (join, d) ∈ fs := by
  simp [collected]

theorem merge_wrap (cs : Constraints) (f : Fragment) :
    cs.merge (wrap f) = cs.add (listKey f.1) (.many [.document f.2]) := by
  obtain ⟨join, d⟩ := f
  cases join <;> rfl

theorem listKey_injective {join join' : Join} (h : listKey join = listKey join') : join = join' := by
  cases join <;> cases join' <;> simp [listKey] at h ⊢

theorem eq_or_eq_otherJoin (join join' : Join) : join' = join ∨ join' = otherJoin join := by
  cases join <;> cases join' <;> simp [otherJoin]

theorem otherJoin_ne (join : Join) : otherJoin join ≠ join := by
  cases join <;> simp [otherJoin]

theorem listed_append_of_ne {join : Join} (fs : List Fragment) {f : Fragment} (h : f.1 ≠ join) :
    listed join (fs ++ [f]) = listed join fs := by
  have hc : collected join (fs ++ [f]) = collected join fs := by
    rw [collected_append]; simp [collected, h]
  simp only [listed, hc]

theorem add_listed_of_ne {join : Join} {key : String} (h : key ≠ listKey join) (fs : List Fragment)
    (cs : Constraints) (c : Constraint) :
    (listed join fs ++ cs).add key c = listed join fs ++ cs.add key c := by
  unfold listed
  split
  · rfl
  · simp [Constraints.add, Ne.symm h]

theorem add_listed (fs : List Fragment) (f : Fragment) (cs : Constraints)
    (h : cs = [] ∨ collected f.1 fs ≠ []) :
    (listed f.1 fs ++ cs).add (listKey f.1) (.many [.document f.2]) = listed f.1 (fs ++ [f]) ++ cs := by
  have hc : collected f.1 (fs ++ [f]) = collected f.1 fs ++ [f.2] := by
    rw [collected_append]; simp [collected]
  by_cases he : collected f.1 fs = []
  · obtain rfl := h.resolve_right (not_not_intro he)
    simp [listed, hc, he, Constraints.add]
  · simp [listed, hc, he, Constraints.add, Constraint.values]

theorem foldl_wrap (fs : List Fragment) :
    fs.foldl (fun cs f => Constraints.merge cs (wrap f)) [] = lists fs := by
  -- The last fragment goes to the end of the list under its join, or begins the second list.
  induction fs using List.reverseRecOn with
  | nil => rfl
  | append_singleton fs f ih =>
    rw [List.foldl_append, List.foldl_cons, List.foldl_nil, ih, merge_wrap]
    cases fs with
    | nil => simpa [lists, listed, collected, otherJoin_ne, Ne.symm (otherJoin_ne _)] using
        add_listed [] f [] (Or.inl rfl)
    | cons g rest =>
      simp only [lists, List.cons_append]
      rcases eq_or_eq_otherJoin g.1 f.1 with hf | hf
      · have hg : collected f.1 (g :: rest) ≠ [] := by simp [collected, hf]
        rw [← hf, add_listed _ _ _ (Or.inr hg), ← List.cons_append,
          listed_append_of_ne _ (Ne.symm (otherJoin_ne _))]
      · have hne : f.1 ≠ g.1 := hf ▸ otherJoin_ne g.1
        have hkey : listKey f.1 ≠ listKey g.1 := fun h => hne (listKey_injective h)
        have hadd := add_listed (g :: rest) f [] (Or.inl rfl)
        rw [List.append_nil, List.append_nil] at hadd
        rw [add_listed_of_ne hkey, ← hf, hadd, ← List.cons_append]
        rw [listed_append_of_ne (g :: rest) hne]

theorem assemble_eq_lists {fs : List Fragment} (h : ∀ f, fs ≠ [(.and, f)]) :
    assemble fs = lists (rejoined fs) := by
  rw [assemble.eq_def]
  split
  · rename_i f
    exact absurd rfl (h f)
  · exact foldl_wrap _

def verdict (vs : List (Join × Bool)) : Bool :=
  decide ((∀ v ∈ vs, v.1 = .and → v.2 = true) ∧
    ((∃ v ∈ vs, v.1 = .or) → ∃ v ∈ vs, v.1 = .or ∧ v.2 = true))

def truths (doc : Document) (fs : List Fragment) : List (Join × Bool) :=
  fs.map fun f => (f.1, Filter.passes doc f.2)

theorem toDocument_append (cs ds : Constraints) :
    Constraints.toDocument (cs ++ ds) = cs.toDocument ++ ds.toDocument := by
  simp [Constraints.toDocument]

theorem toDocument_listed (join : Join) (fs : List Fragment) :
    (listed join fs).toDocument =
      if collected join fs = [] then []
      else [(listKey join, .array ((collected join fs).map .document))] := by
  unfold listed
  split <;> rfl

variable {doc : Document} {fs : List Fragment}

theorem holds_listed_and (h : ∀ f ∈ fs, Filter.Evaluates doc f.2) :
    Filter.holds doc (listed .and fs).toDocument =
      .ok ((collected .and fs).all (Filter.passes doc)) := by
  rw [toDocument_listed]
  split
  · rename_i he
    rw [he, Filter.holds_nil, List.all_nil]
  · rw [listKey, Filter.holds_singleton, Filter.entryHolds_and, Filter.allHold_ok]
    exact fun d hd => h (.and, d) (mem_collected.mp hd)

theorem holds_listed_or (h : ∀ f ∈ fs, Filter.Evaluates doc f.2) :
    Filter.holds doc (listed .or fs).toDocument =
      .ok ((collected .or fs).isEmpty || (collected .or fs).any (Filter.passes doc)) := by
  rw [toDocument_listed]
  split
  · rename_i he
    rw [he, Filter.holds_nil, List.isEmpty_nil, Bool.true_or]
  · rename_i he
    rw [listKey, Filter.holds_singleton, Filter.entryHolds_or, Filter.anyHolds_ok]
    · simp [he]
    · exact fun d hd => h (.or, d) (mem_collected.mp hd)

theorem mem_truths {join : Join} {b : Bool} :
    (join, b) ∈ truths doc fs ↔ ∃ d ∈ collected join fs, Filter.passes doc d = b := by
  constructor
  · intro h
    obtain ⟨⟨j, d⟩, hd, he⟩ := List.mem_map.mp h
    obtain ⟨rfl, rfl⟩ := Prod.mk.inj he
    exact ⟨d, mem_collected.mpr hd, rfl⟩
  · rintro ⟨d, hd, rfl⟩
    exact List.mem_map.mpr ⟨(join, d), mem_collected.mp hd, rfl⟩

theorem verdict_truths :
    verdict (truths doc fs) = ((collected .and fs).all (Filter.passes doc) &&
      ((collected .or fs).isEmpty || (collected .or fs).any (Filter.passes doc))) := by
  have hand : (∀ v ∈ truths doc fs, v.1 = .and → v.2 = true) ↔
      ∀ d ∈ collected .and fs, Filter.passes doc d = true := by
    constructor
    · intro h d hd
      exact h (.and, _) (mem_truths.mpr ⟨d, hd, rfl⟩) rfl
    · rintro h ⟨join, b⟩ hv rfl
      obtain ⟨d, hd, rfl⟩ := mem_truths.mp hv
      exact h d hd
  have hany : (∃ v ∈ truths doc fs, v.1 = .or) ↔ ¬ collected .or fs = [] := by
    constructor
    · rintro ⟨⟨join, b⟩, hv, rfl⟩
      obtain ⟨d, hd, -⟩ := mem_truths.mp hv
      exact List.ne_nil_of_mem hd
    · intro h
      obtain ⟨d, hd⟩ := List.exists_mem_of_ne_nil _ h
      exact ⟨(.or, _), mem_truths.mpr ⟨d, hd, rfl⟩, rfl⟩
  have hor : (∃ v ∈ truths doc fs, v.1 = .or ∧ v.2 = true) ↔
      ∃ d ∈ collected .or fs, Filter.passes doc d = true := by
    constructor
    · rintro ⟨⟨join, b⟩, hv, rfl, rfl⟩
      exact mem_truths.mp hv
    · rintro ⟨d, hd, hp⟩
      exact ⟨(.or, true), mem_truths.mpr ⟨d, hd, hp⟩, rfl, rfl⟩
  rw [Bool.eq_iff_iff, verdict, decide_eq_true_iff, hand, hany, hor]
  simp only [Bool.and_eq_true, List.all_eq_true, Bool.or_eq_true, List.isEmpty_iff, List.any_eq_true]
  tauto

theorem holds_lists (h : ∀ f ∈ fs, Filter.Evaluates doc f.2) :
    Filter.holds doc (lists fs).toDocument = .ok (verdict (truths doc fs)) := by
  rw [verdict_truths]
  cases fs with
  | nil => exact Filter.holds_nil doc
  | cons f rest =>
    have hand := holds_listed_and h
    have hor := holds_listed_or h
    rw [lists, toDocument_append]
    cases f.1 with
    | and => exact Filter.holds_append_ok doc hand hor
    | or => rw [Bool.and_comm]; exact Filter.holds_append_ok doc hor hand

theorem holds_lists_eq_true :
    Filter.holds doc (lists fs).toDocument = .ok true ↔
      (∀ d ∈ collected .and fs, Filter.holds doc d = .ok true) ∧
        Filter.holds doc (listed .or fs).toDocument = .ok true := by
  have hand : Filter.holds doc (listed .and fs).toDocument = .ok true ↔
      ∀ d ∈ collected .and fs, Filter.holds doc d = .ok true := by
    rw [toDocument_listed]
    split
    · rename_i he
      simp [he, Filter.holds_nil]
    · rw [listKey, Filter.holds_singleton, Filter.entryHolds_and, Filter.allHold_eq_true]
  cases fs with
  | nil => simp [lists, listed, collected, Constraints.toDocument, Filter.holds_nil]
  | cons f rest =>
    rw [lists, toDocument_append, Filter.holds_append_eq_true, ← hand]
    cases f.1 with
    | and => rfl
    | or => exact and_comm

theorem map_snd_rejoined (fs : List Fragment) : (rejoined fs).map Prod.snd = fs.map Prod.snd := by
  rw [rejoined.eq_def]
  split <;> rfl

theorem forall_rejoined {p : Document → Prop} (h : ∀ f ∈ fs, p f.2) : ∀ f ∈ rejoined fs, p f.2 := by
  intro f hf
  have hmem : f.2 ∈ fs.map Prod.snd := map_snd_rejoined fs ▸ List.mem_map_of_mem hf
  obtain ⟨g, hg, he⟩ := List.mem_map.mp hmem
  exact he ▸ h g hg

theorem holds_assemble (hn : ∀ f ∈ fs, f.2.keys.Nodup) (h : ∀ f ∈ fs, Filter.Evaluates doc f.2) :
    Filter.holds doc (assemble fs).toDocument = .ok (verdict (truths doc (rejoined fs))) := by
  by_cases hs : ∃ f, fs = [(.and, f)]
  · obtain ⟨f, rfl⟩ := hs
    have hf := Filter.holds_eq_passes doc (h (.and, f) (by simp))
    have hv : verdict (truths doc (rejoined [(.and, f)])) = Filter.passes doc f := by
      simp [verdict, truths, rejoined]
    rw [hv]
    exact holds_merge_nil (hn (.and, f) (by simp)) hf
  · rw [assemble_eq_lists fun f hf => hs ⟨f, hf⟩]
    exact holds_lists (forall_rejoined h)

end RelDoc.Scope
