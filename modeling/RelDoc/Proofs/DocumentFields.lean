import RelDoc.Value.Basic

namespace RelDoc.Document

variable {d : Document} {p : String × Value → Prop}

theorem get?_of_mem (hkeys : d.keys.Nodup) {key : String} {v : Value}
    (h : (key, v) ∈ d) : d.get? key = some v := by
  induction d with
  | nil => cases h
  | cons field rest ih =>
    obtain ⟨k, w⟩ := field
    obtain ⟨hk, hrest⟩ := List.nodup_cons.mp hkeys
    rcases List.mem_cons.mp h with heq | h
    · obtain ⟨rfl, rfl⟩ := Prod.mk.inj heq
      rw [get?, if_pos rfl]
    · have hmem : key ∈ Document.keys rest := List.mem_map.mpr ⟨_, h, rfl⟩
      have hne : k ≠ key := fun heq => hk (heq ▸ hmem)
      rw [get?, if_neg hne]
      exact ih hrest h

theorem mem_of_get? {key : String} {v : Value} (h : d.get? key = some v) :
    (key, v) ∈ d := by
  induction d with
  | nil => cases h
  | cons field rest ih =>
    obtain ⟨k, w⟩ := field
    by_cases hk : k = key
    · rw [get?, if_pos hk] at h
      rw [← Option.some.inj h, ← hk]
      exact List.mem_cons_self
    · rw [get?, if_neg hk] at h
      exact List.mem_cons_of_mem _ (ih h)

theorem mem_keys_of_get? {key : String} {v : Value} (h : d.get? key = some v) : key ∈ d.keys :=
  List.mem_map_of_mem (mem_of_get? h)

theorem get?_of_not_mem {name : String} (h : name ∉ d.keys) : d.get? name = none := by
  rcases hget : d.get? name with _ | v
  · rfl
  · exact absurd (mem_keys_of_get? hget) h

theorem exists_get?_of_mem_keys {key : String} (h : key ∈ d.keys) : ∃ v, d.get? key = some v := by
  induction d with
  | nil => cases h
  | cons field rest ih =>
    obtain ⟨k, v⟩ := field
    by_cases hk : k = key
    · exact ⟨v, if_pos hk⟩
    · obtain ⟨w, hw⟩ := ih ((List.mem_cons.mp h).resolve_left (Ne.symm hk))
      exact ⟨w, (if_neg hk).trans hw⟩

theorem forall_insert (h : ∀ field ∈ d, p field) {key : String} {v : Value} (hv : p (key, v)) :
    ∀ field ∈ d.insert key v, p field := by
  induction d with
  | nil => simpa [insert] using hv
  | cons f rest ih =>
    obtain ⟨hf, hrest⟩ := List.forall_mem_cons.mp h
    simp only [insert]
    split
    · exact List.forall_mem_cons.mpr ⟨hv, hrest⟩
    · exact List.forall_mem_cons.mpr ⟨hf, ih hrest⟩

theorem forall_merge {fields : List (String × Value)} (hd : ∀ field ∈ d, p field)
    (h : ∀ field ∈ fields, p field) : ∀ field ∈ d.merge fields, p field := by
  induction fields generalizing d with
  | nil => exact hd
  | cons f rest ih =>
    obtain ⟨hf, hrest⟩ := List.forall_mem_cons.mp h
    exact ih (forall_insert hd hf) hrest

theorem forall_ofFields {fields : List (String × Value)} (h : ∀ field ∈ fields, p field) :
    ∀ field ∈ ofFields fields, p field :=
  forall_merge (by simp) h

theorem get?_merge (fields : List (String × Value)) (d : Document) (key : String) :
    (d.merge fields).get? key = (fields.reverse.lookup key).or (d.get? key) := by
  induction fields generalizing d with
  | nil => rfl
  | cons field rest ih =>
    obtain ⟨k, v⟩ := field
    change ((d.insert k v).merge rest).get? key = _
    rw [ih, List.reverse_cons, List.lookup_append, Option.or_assoc]
    congr 1
    by_cases h : key = k
    · subst h
      simp
    · have hbeq : (key == k) = false := by simpa using h
      rw [get?_insert_of_ne d k v (Ne.symm h), List.lookup_cons, hbeq]
      rfl

theorem contains_of_get? {key : String} {v : Value} (h : d.get? key = some v) :
    d.contains key = true := by
  rw [contains, h]
  rfl

theorem contains_insert {key : String} (other : String) (v : Value) (h : d.contains key = true) :
    (d.insert other v).contains key = true := by
  by_cases hk : other = key
  · rw [hk]
    exact contains_of_get? (get?_insert d key v)
  · rw [contains, get?_insert_of_ne d other v hk]
    exact h

theorem insert_of_not_mem {key : String} (h : key ∉ d.keys) (v : Value) :
    d.insert key v = d ++ [(key, v)] := by
  induction d with
  | nil => rfl
  | cons field rest ih =>
    obtain ⟨hne, hrest⟩ := not_or.mp (mt List.mem_cons.mpr h)
    rw [insert, if_neg (Ne.symm hne), ih hrest]
    rfl

theorem keys_insert_of_get? {key : String} {v : Value} (h : d.get? key = some v) (w : Value) :
    (d.insert key w).keys = d.keys := by
  induction d with
  | nil => cases h
  | cons field rest ih =>
    obtain ⟨k, u⟩ := field
    by_cases hk : k = key
    · simp [insert, keys, hk]
    · rw [get?, if_neg hk] at h
      rw [insert, if_neg hk]
      exact congrArg (k :: ·) (ih h)

theorem keys_insert (key : String) (v : Value) (d : Document) :
    (d.insert key v).keys = if key ∈ d.keys then d.keys else d.keys ++ [key] := by
  by_cases hkey : key ∈ d.keys
  · obtain ⟨w, hw⟩ := exists_get?_of_mem_keys hkey
    rw [if_pos hkey, keys_insert_of_get? hw]
  · rw [if_neg hkey, insert_of_not_mem hkey, keys, List.map_append]
    rfl

theorem merge_of_nodup {fields : List (String × Value)} (h : (keys (d ++ fields)).Nodup) :
    d.merge fields = d ++ fields := by
  induction fields generalizing d with
  | nil => exact (List.append_nil d).symm
  | cons field rest ih =>
    obtain ⟨name, v⟩ := field
    have hname : name ∉ d.keys := by
      rw [keys, List.map_append, List.map_cons] at h
      exact fun hmem => (List.nodup_append.mp h).2.2 name hmem name List.mem_cons_self rfl
    have hmerge : d.merge ((name, v) :: rest) = (d.insert name v).merge rest := rfl
    rw [hmerge, insert_of_not_mem hname, ih (by rwa [List.append_assoc]), List.append_assoc]
    rfl

theorem ofFields_of_nodup {fields : Document} (h : fields.keys.Nodup) : ofFields fields = fields :=
  merge_of_nodup h

theorem keys_map (names : List String) (value : String → Value) :
    keys (names.map fun n => (n, value n)) = names := by
  rw [keys, List.map_map]
  exact List.map_id _

theorem nodup_keys_map {names : List String} (h : names.Nodup) (value : String → Value) :
    (keys (names.map fun n => (n, value n))).Nodup := by
  rwa [keys_map]

theorem insert_map (g : String → Value) (names : List String) (name : String) :
    insert (names.map fun n => (n, g n)) name (g name) =
      (if name ∈ names then names else names ++ [name]).map fun n => (n, g n) := by
  induction names with
  | nil => rfl
  | cons n rest ih =>
    by_cases h : n = name
    · subst h
      simp [insert]
    · rw [List.map_cons, insert, if_neg h, ih]
      by_cases hmem : name ∈ rest <;> simp [hmem, Ne.symm h]

theorem merge_map (names start : List String) : ∃ all : List String,
    (∀ n, n ∈ all ↔ n ∈ start ∨ n ∈ names) ∧ ∀ g : String → Value,
      merge (start.map fun n => (n, g n)) (names.map fun n => (n, g n)) =
        all.map fun n => (n, g n) := by
  induction names generalizing start with
  | nil => exact ⟨start, by simp, fun _ => rfl⟩
  | cons name rest ih =>
    obtain ⟨all, hall, hmerge⟩ := ih (if name ∈ start then start else start ++ [name])
    refine ⟨all, fun n => ?_, fun g => ?_⟩
    · rw [hall, List.mem_cons]
      split
      · rename_i hname
        constructor
        · exact Or.imp_right Or.inr
        · rintro (h | rfl | h)
          · exact Or.inl h
          · exact Or.inl hname
          · exact Or.inr h
      · simp [or_assoc]
    · rw [← hmerge g, ← insert_map]
      rfl

theorem ofFields_map (names : List String) : ∃ distinct : List String,
    (∀ n, n ∈ distinct ↔ n ∈ names) ∧ ∀ g : String → Value,
      ofFields (names.map fun n => (n, g n)) = distinct.map fun n => (n, g n) := by
  obtain ⟨all, hall, hmerge⟩ := merge_map names []
  exact ⟨all, by simpa using hall, hmerge⟩

theorem erase_cons (k key : String) (v : Value) (rest : Document) :
    erase ((k, v) :: rest) key = if k = key then erase rest key else (k, v) :: erase rest key := by
  by_cases h : k = key <;> simp [erase, h]

theorem get?_erase_of_ne {key other : String} (h : key ≠ other) (d : Document) :
    (d.erase key).get? other = d.get? other := by
  induction d with
  | nil => rfl
  | cons field rest ih =>
    obtain ⟨k, v⟩ := field
    rw [erase_cons]
    by_cases hk : k = key
    · subst hk
      simp [get?, h, ih]
    · simp [get?, hk, ih]

end RelDoc.Document
