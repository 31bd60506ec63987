import RelDoc.Proofs.FieldConditions
import RelDoc.Proofs.KeyOrder

namespace RelDoc

open RelDoc.Path

namespace Document

variable {p q : List String} {v w : Value} {a d e : Document} {column : String}
  {columns : List String}

def Lost (after before : Value) : Prop :=
  after = before ∨
    ∃ e d : Document, after = .document e ∧ before = .document d ∧ e.keys.Sublist d.keys

theorem Lost.trans {u : Value} (h : Lost u v) (h' : Lost v w) : Lost u w := by
  rcases h with rfl | ⟨e, d, rfl, rfl, hkeys⟩
  · exact h'
  · rcases h' with rfl | ⟨d', d'', hd, rfl, hkeys'⟩
    · exact Or.inr ⟨e, d, rfl, rfl, hkeys⟩
    · obtain rfl := Value.document.inj hd
      exact Or.inr ⟨e, d'', rfl, rfl, hkeys.trans hkeys'⟩

theorem Lost.keys_sublist (h : Lost (.document e) (.document d)) : e.keys.Sublist d.keys := by
  rcases h with hsame | ⟨e', d', he, hd, hkeys⟩
  · rw [Value.document.inj hsame]
  · rwa [Value.document.inj he, Value.document.inj hd]

structure Thinned (e d : Document) : Prop where
  keys : e.keys.Sublist d.keys
  below : ∀ q v, LeadsTo v q e → ∃ w, LeadsTo w q d ∧ Lost v w

theorem Thinned.refl (d : Document) : Thinned d d := ⟨.refl _, fun _ v h => ⟨v, h, Or.inl rfl⟩⟩

theorem Thinned.trans (h : Thinned a e) (h' : Thinned e d) : Thinned a d := by
  refine ⟨h.keys.trans h'.keys, fun q v hleads => ?_⟩
  obtain ⟨u, hu, hlost⟩ := h.below q v hleads
  obtain ⟨w, hw, hlost'⟩ := h'.below q u hu
  exact ⟨w, hw, hlost.trans hlost'⟩

theorem thinned_erase (key : String) (d : Document) : Thinned (d.erase key) d := by
  refine ⟨List.filter_sublist.map _, fun q v hleads => ?_⟩
  rcases q with _ | ⟨other, rest⟩
  · exact hleads.elim
  · by_cases hkey : key = other
    · subst hkey
      obtain ⟨u, hu⟩ := hleads.exists_get?
      rw [get?_erase] at hu
      cases hu
    · exact ⟨v, hleads.congr (get?_erase_of_ne hkey d).symm, Or.inl rfl⟩

theorem Thinned.insert {key : String} (h : Thinned e d) (hkey : a.get? key = some (.document d)) :
    Thinned (a.insert key (.document e)) a := by
  refine ⟨by rw [keys_insert_of_get? hkey], fun q v hleads => ?_⟩
  rcases q with _ | ⟨other, rest⟩
  · exact hleads.elim
  · by_cases hother : key = other
    · subst hother
      by_cases hrest : rest = []
      · subst hrest
        obtain rfl := Option.some.inj ((get?_insert a key _).symm.trans hleads)
        exact ⟨_, hkey, Or.inr ⟨e, d, rfl, rfl, h.keys⟩⟩
      · obtain ⟨inner, hinner, hbelow⟩ := (leadsTo_cons key hrest).mp hleads
        rw [get?_insert] at hinner
        cases hinner
        obtain ⟨w, hw, hlost⟩ := h.below rest v hbelow
        exact ⟨w, (leadsTo_cons key hrest).mpr ⟨d, hkey, hw⟩, hlost⟩
    · exact ⟨v, hleads.congr (get?_insert_of_ne a key _ hother).symm, Or.inl rfl⟩

theorem leadsTo_append (hp : p ≠ []) (hq : q ≠ []) : LeadsTo v (p ++ q) d ↔
    ∃ inner, LeadsTo (.document inner) p d ∧ LeadsTo v q inner := by
  induction p generalizing d with
  | nil => exact absurd rfl hp
  | cons key rest ih =>
    by_cases hrest : rest = []
    · subst hrest
      exact leadsTo_cons key hq
    · rw [List.cons_append, leadsTo_cons key (List.append_ne_nil_of_left_ne_nil hrest q)]
      simp only [ih hrest, leadsTo_cons key hrest]
      constructor
      · rintro ⟨below, hbelow, inner, hinner, hleads⟩
        exact ⟨inner, ⟨below, hbelow, hinner⟩, hleads⟩
      · rintro ⟨inner, ⟨below, hbelow, hinner⟩, hleads⟩
        exact ⟨below, hbelow, inner, hinner, hleads⟩

theorem LeadsTo.exists_before (h : LeadsTo v q d) (hleading : p <+: q) (hp : p ≠ []) :
    ∃ w, LeadsTo w p d := by
  obtain ⟨rest, rfl⟩ := hleading
  by_cases hrest : rest = []
  · rw [hrest, List.append_nil] at h
    exact ⟨v, h⟩
  · obtain ⟨inner, hinner, -⟩ := (leadsTo_append hp hrest).mp h
    exact ⟨_, hinner⟩

theorem LeadsTo.eq (h : LeadsTo v p d) (h' : LeadsTo w p d) : v = w :=
  List.singleton_inj.mp (h.reach.symm.trans h'.reach)

theorem Thinned.inside {key : String} {left inner : Document} (h : Thinned e d)
    (hleft : e.get? key = some (.document left)) (hinner : d.get? key = some (.document inner)) :
    Thinned left inner := by
  constructor
  · obtain ⟨w, hw, hlost⟩ := h.below [key] _ hleft
    obtain rfl := Option.some.inj (hinner.symm.trans hw)
    exact hlost.keys_sublist
  · intro q v hleads
    have hq : q ≠ [] := by
      rintro rfl
      exact hleads
    obtain ⟨w, hw, hlost⟩ := h.below (key :: q) v ((leadsTo_cons key hq).mpr ⟨left, hleft, hleads⟩)
    obtain ⟨found, hfound, hbelow⟩ := (leadsTo_cons key hq).mp hw
    rw [hinner] at hfound
    cases hfound
    exact ⟨w, hbelow, hlost⟩

theorem Thinned.leadsTo_of_structEq (h : Thinned e d) (hsame : structEq e d = true)
    (hleads : LeadsTo w q d) : ∃ v, LeadsTo v q e := by
  induction q generalizing e d with
  | nil => exact hleads.elim
  | cons key rest ih =>
    obtain ⟨hlength, hfields⟩ := Value.structEq_document.mp hsame
    have hkeys : e.keys = d.keys :=
      h.keys.eq_of_length (by simpa [Document.keys] using hlength)
    obtain ⟨u, hu⟩ := hleads.exists_get?
    obtain ⟨v, hv⟩ : ∃ v, e.get? key = some v := by
      apply exists_get?_of_mem_keys
      rw [hkeys]
      exact mem_keys_of_get? hu
    by_cases hrest : rest = []
    · subst hrest
      exact ⟨v, hv⟩
    · obtain ⟨inner, hinner, hbelow⟩ := (leadsTo_cons key hrest).mp hleads
      obtain ⟨x, hx, hvx⟩ := hfields (key, v) (mem_of_get? hv)
      obtain rfl := Option.some.inj (hinner.symm.trans hx)
      obtain ⟨left, rfl⟩ := Value.eq_document_of_rank (Value.rank_of_structEq hvx)
      obtain ⟨v, hv'⟩ := ih (h.inside hv hinner) hvx hbelow
      exact ⟨v, (leadsTo_cons key hrest).mpr ⟨left, hv, hv'⟩⟩

theorem thinned_removeAt (p : List String) (d : Document) : Thinned (removeAt p d).2 d := by
  induction p generalizing d with
  | nil => exact .refl d
  | cons key rest ih =>
    by_cases hrest : rest = []
    · subst hrest
      exact thinned_erase key d
    · rcases removeAt_cons key hrest d with ⟨inner, hinner, hremove⟩ | ⟨-, hremove⟩
      · rw [hremove]
        exact (ih inner).insert hinner
      · rw [hremove]
        exact .refl d

theorem not_leadsTo_removeAt (v : Value) (p : List String) (d : Document) :
    ¬LeadsTo v p (removeAt p d).2 := by
  induction p generalizing d with
  | nil => exact id
  | cons key rest ih =>
    intro hleads
    by_cases hrest : rest = []
    · subst hrest
      have hv : (d.erase key).get? key = some v := hleads
      rw [get?_erase] at hv
      cases hv
    · obtain ⟨inner, hinner, hbelow⟩ := (leadsTo_cons key hrest).mp hleads
      rcases removeAt_cons key hrest d with ⟨whole, -, hremove⟩ | ⟨hnone, hremove⟩
      · rw [hremove, get?_insert] at hinner
        cases hinner
        exact ih whole hbelow
      · rw [hremove] at hinner
        exact hnone inner hinner

theorem LeadsTo.removeAt_of_array {items : List Value} (h : LeadsTo (.array items) q d)
    (hp : ¬p <+: q) : LeadsTo (.array items) q (Document.removeAt p d).2 := by
  induction q generalizing p d with
  | nil => exact h.elim
  | cons b q ih =>
    rcases p with _ | ⟨a, p⟩
    · exact h
    · by_cases hab : a = b
      · subst hab
        have hrest : ¬p <+: q := fun hleading => hp (List.cons_prefix_cons.mpr ⟨rfl, hleading⟩)
        have hne : p ≠ [] := by
          rintro rfl
          exact hrest List.nil_prefix
        rcases removeAt_cons a hne d with ⟨inner, hinner, hremove⟩ | ⟨-, hremove⟩
        · by_cases hq : q = []
          · subst hq
            have harray : d.get? a = some (.array items) := h
            rw [hinner] at harray
            cases harray
          · obtain ⟨found, hfound, hbelow⟩ := (leadsTo_cons a hq).mp h
            rw [hinner] at hfound
            cases hfound
            rw [hremove, leadsTo_cons a hq]
            exact ⟨_, get?_insert d a _, ih hbelow hrest⟩
        · rwa [hremove]
      · exact h.congr (get?_removeAt_of_ne hab p d)

def removeEach (d : Document) (columns : List String) : Document := columns.foldl remove d

theorem thinned_removeEach (columns : List String) (d : Document) :
    Thinned (d.removeEach columns) d := by
  induction columns generalizing d with
  | nil => exact .refl d
  | cons c rest ih => exact (ih (d.remove c)).trans (thinned_removeAt (segments c) d)

theorem not_leadsTo_removeEach (hmem : column ∈ columns) (v : Value) (d : Document) :
    ¬LeadsTo v (segments column) (d.removeEach columns) := by
  induction columns generalizing d with
  | nil => cases hmem
  | cons c rest ih =>
    rcases List.mem_cons.mp hmem with rfl | hmem
    · -- The removals after the first bring nothing back.
      intro hleads
      obtain ⟨w, hw, -⟩ := (thinned_removeEach rest (d.remove column)).below _ v hleads
      exact not_leadsTo_removeAt w (segments column) d hw
    · exact ih hmem (d.remove c)

theorem LeadsTo.removeEach {items : List Value} (h : LeadsTo (.array items) q d)
    (hcolumns : ∀ c ∈ columns, ¬segments c <+: q) :
    LeadsTo (.array items) q (d.removeEach columns) := by
  induction columns generalizing d with
  | nil => exact h
  | cons c rest ih =>
    obtain ⟨hc, hrest⟩ := List.forall_mem_cons.mp hcolumns
    exact ih (h.removeAt_of_array hc) hrest

theorem lookup_removeEach_of_apart (hcolumns : ∀ c ∈ columns, Apart (segments c) (segments column))
    (d : Document) : (d.removeEach columns).lookup column = d.lookup column := by
  induction columns generalizing d with
  | nil => rfl
  | cons c rest ih =>
    obtain ⟨hc, hrest⟩ := List.forall_mem_cons.mp hcolumns
    exact (ih hrest (d.remove c)).trans (reach_removeAt_of_apart hc d)

theorem exists_array_of_reach (hreach : (Value.document d).reach q ≠ [])
    (hnone : ∀ v, ¬LeadsTo v q d) (hq : q ≠ []) : ∃ way rest items, q = way ++ rest ∧
      LeadsTo (.array items) way d ∧ (Value.array items).reach rest ≠ [] := by
  induction q generalizing d with
  | nil => exact absurd rfl hq
  | cons key rest ih =>
    rw [Value.reach_document] at hreach
    rcases hkey : d.get? key with _ | v
    · rw [hkey] at hreach
      exact absurd rfl hreach
    · rw [hkey, Option.toList_some, List.flatMap_singleton] at hreach
      have hrest : rest ≠ [] := by
        rintro rfl
        exact hnone v hkey
      cases v with
      | array items => exact ⟨[key], rest, items, rfl, hkey, hreach⟩
      | document inner =>
        have hbelow : ∀ v, ¬LeadsTo v rest inner :=
          fun v hleads => hnone v ((leadsTo_cons key hrest).mpr ⟨inner, hkey, hleads⟩)
        obtain ⟨way, more, items, rfl, hleads, hmore⟩ := ih hreach hbelow hrest
        have hway : way ≠ [] := by
          rintro rfl
          exact hleads
        exact ⟨key :: way, more, items, rfl, (leadsTo_cons key hway).mpr ⟨inner, hkey, hleads⟩, hmore⟩
      | _ =>
        obtain ⟨next, more, rfl⟩ := List.exists_cons_of_ne_nil hrest
        exact absurd rfl hreach

/-- The column reaches something through an array, and no column of the list leads to this array or to
what it stands in. -/
def HeldInArray (columns : List String) (column : String) (d : Document) : Prop :=
  ∃ way rest items, segments column = way ++ rest ∧ LeadsTo (.array items) way d ∧
    (Value.array items).reach rest ≠ [] ∧ ∀ c ∈ columns, ¬segments c <+: way

theorem lookup_ne_nil_of_heldInArray (h : d.HeldInArray columns column) :
    d.lookup column ≠ [] := by
  obtain ⟨way, rest, items, hsplit, hleads, hreach, -⟩ := h
  rw [lookup, hsplit, Value.reach_append, hleads.reach, List.flatMap_singleton]
  exact hreach

theorem LeadsTo.not_heldInArray (h : LeadsTo v (segments column) d) (hmem : column ∈ columns) :
    ¬d.HeldInArray columns column := by
  rintro ⟨way, rest, items, hsplit, hleads, -, hcolumns⟩
  by_cases hrest : rest = []
  · rw [hrest, List.append_nil] at hsplit
    exact hcolumns column hmem (hsplit ▸ List.prefix_refl way)
  · have hway : way ≠ [] := by
      rintro rfl
      exact hleads
    rw [hsplit] at h
    obtain ⟨inner, hinner, -⟩ := (leadsTo_append hway hrest).mp h
    cases hleads.eq hinner

structure Without (columns : List String) (e d : Document) : Prop where
  thinned : Thinned e d
  gone : ∀ c ∈ columns, ∀ v, ¬LeadsTo v (segments c) e
  arrays : ∀ q items, LeadsTo (.array items) q d → (∀ c ∈ columns, ¬segments c <+: q) →
    LeadsTo (.array items) q e
  others : ∀ other, (∀ c ∈ columns, Apart (segments c) (segments other)) →
    e.lookup other = d.lookup other

theorem without_removeEach (columns : List String) (d : Document) :
    Without columns (d.removeEach columns) d where
  thinned := thinned_removeEach columns d
  gone _ hc v := not_leadsTo_removeEach hc v d
  arrays _ _ := LeadsTo.removeEach
  others _ hapart := lookup_removeEach_of_apart hapart d

theorem without_of_structEq (h : structEq (d.removeEach columns) d = true) :
    Without columns d d where
  thinned := .refl d
  gone c hc v hleads := by
    obtain ⟨w, hw⟩ := (thinned_removeEach columns d).leadsTo_of_structEq h hleads
    exact not_leadsTo_removeEach hc w d hw
  arrays _ _ hleads _ := hleads
  others _ _ := rfl

theorem Without.of_mem_iff {named : List String} (h : Without named e d)
    (hnamed : ∀ c, c ∈ named ↔ c ∈ columns) : Without columns e d where
  thinned := h.thinned
  gone c hc := h.gone c ((hnamed c).mpr hc)
  arrays q items hleads hcolumns := h.arrays q items hleads fun c hc => hcolumns c ((hnamed c).mp hc)
  others other hapart := h.others other fun c hc => hapart c ((hnamed c).mp hc)

theorem Without.lookup_eq_nil_iff (h : Without columns e d) (hmem : column ∈ columns) :
    e.lookup column = [] ↔ ¬d.HeldInArray columns column := by
  constructor
  · rintro hnil ⟨way, rest, items, hsplit, hleads, hreach, hcolumns⟩
    exact lookup_ne_nil_of_heldInArray
      ⟨way, rest, items, hsplit, h.arrays way items hleads hcolumns, hreach, hcolumns⟩ hnil
  · intro hfree
    by_contra hne
    obtain ⟨way, rest, items, hsplit, hleads, hreach⟩ :=
      exists_array_of_reach hne (h.gone column hmem) (segments_ne_nil column)
    obtain ⟨w, hw, rfl | ⟨e', d', harray, -, -⟩⟩ := h.thinned.below way _ hleads
    · refine hfree ⟨way, rest, items, hsplit, hw, hreach, fun c hc hleading => ?_⟩
      obtain ⟨v, hv⟩ := hleads.exists_before hleading (segments_ne_nil c)
      exact h.gone c hc v hv
    · cases harray

end Document

end RelDoc
