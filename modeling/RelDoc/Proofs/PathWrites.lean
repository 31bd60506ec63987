import RelDoc.Path
import RelDoc.Proofs.DocumentFields

namespace RelDoc

namespace Path

def Apart (p q : List String) : Prop := ¬p <+: q ∧ ¬q <+: p

theorem Apart.ne_nil {p q : List String} (h : Apart p q) : p ≠ [] ∧ q ≠ [] := by
  constructor
  · rintro rfl
    exact h.1 List.nil_prefix
  · rintro rfl
    exact h.2 List.nil_prefix

theorem apart_cons {a b : String} {p q : List String} :
    Apart (a :: p) (b :: q) ↔ (a = b → Apart p q) := by
  simp only [Apart, List.cons_prefix_cons]
  constructor
  · rintro ⟨hp, hq⟩ rfl
    exact ⟨fun h => hp ⟨rfl, h⟩, fun h => hq ⟨rfl, h⟩⟩
  · intro h
    exact ⟨fun ⟨he, hp⟩ => (h he).1 hp, fun ⟨he, hq⟩ => (h he.symm).2 hq⟩

@[elab_as_elim]
theorem Apart.induction {motive : ∀ p q : List String, Apart p q → Prop}
    (part : ∀ a b p q (h : a ≠ b),
      motive (a :: p) (b :: q) (apart_cons.mpr fun heq => absurd heq h))
    (share : ∀ a p q (h : Apart p q), motive p q h →
      motive (a :: p) (a :: q) (apart_cons.mpr fun _ => h))
    {p q : List String} (h : Apart p q) : motive p q h := by
  induction p generalizing q with
  | nil => exact absurd rfl h.ne_nil.1
  | cons a p ih =>
    rcases q with _ | ⟨b, q⟩
    · exact absurd rfl h.ne_nil.2
    · by_cases hab : a = b
      · subst hab
        exact share a p q _ (ih (apart_cons.mp h rfl))
      · exact part a b p q hab

theorem segments_ne_nil (path : String) : segments path ≠ [] := by
  simpa [segments] using pieces_ne_nil path.toList

theorem eq_of_pieces_singleton {cs piece : List Char} (h : pieces cs = [piece]) : cs = piece := by
  induction cs generalizing piece with
  | nil => simpa [pieces] using h
  | cons c rest ih =>
    rw [pieces] at h
    split at h
    · exact absurd (List.cons.inj h).2 (pieces_ne_nil rest)
    · rcases hrest : pieces rest with _ | ⟨first, more⟩
      · exact absurd hrest (pieces_ne_nil rest)
      · rw [hrest] at h
        obtain ⟨rfl, rfl⟩ := List.cons.inj h
        rw [ih hrest]

theorem eq_of_segments_singleton {path key : String} (h : segments path = [key]) : path = key := by
  obtain ⟨piece, hpiece, rfl⟩ := List.map_eq_singleton_iff.mp h
  rw [← eq_of_pieces_singleton hpiece, String.ofList_toList]

theorem segments_append (path inner : String) :
    segments (path ++ "." ++ inner) = segments path ++ segments inner := by
  have hlist : (path ++ "." ++ inner).toList = path.toList ++ '.' :: inner.toList := by
    rw [String.toList_append, String.toList_append, List.append_assoc]
    rfl
  rw [segments, hlist, pieces_append_dot, List.map_append]
  rfl

theorem pieces_of_not_mem {cs : List Char} (hdot : '.' ∉ cs) : pieces cs = [cs] := by
  induction cs with
  | nil => rfl
  | cons c rest ih =>
    have hc : c ≠ '.' := fun h => hdot (h ▸ List.mem_cons_self)
    have hrest : '.' ∉ rest := fun h => hdot (List.mem_cons_of_mem c h)
    rw [pieces, if_neg hc, ih hrest]

theorem segments_of_dotless {path : String} (hdot : '.' ∉ path.toList) : segments path = [path] := by
  rw [segments, pieces_of_not_mem hdot, List.map_singleton, String.ofList_toList]

end Path

open RelDoc.Path

theorem Value.reach_document (key : String) (rest : List String) (d : Document) :
    (document d).reach (key :: rest) = (d.get? key).toList.flatMap (reach rest) := rfl

theorem Value.reach_nil_document {path : List String} (h : path ≠ []) :
    (document []).reach path = [] := by
  cases path with
  | nil => exact absurd rfl h
  | cons key rest => rfl

namespace Document

variable {p q : List String}

/-- What a write at one path takes out of the reach of another: what is found there through the first
value on the common way that is no document. -/
def displaced : List String → List String → Document → List Value
  | a :: p, b :: q, d =>
    if a = b then
      match d.get? a with
      | some (.document inner) => displaced p q inner
      | some v => v.reach q
      | none => []
    else []
  | _, _, _ => []

theorem displaced_cons (key : String) (p q : List String) (d : Document) :
    displaced (key :: p) (key :: q) d =
      match d.get? key with
      | some (.document inner) => displaced p q inner
      | some v => v.reach q
      | none => [] := by
  rw [displaced, if_pos rfl]

theorem displaced_of_ne {a b : String} (h : a ≠ b) (p q : List String) (d : Document) :
    displaced (a :: p) (b :: q) d = [] := by
  rw [displaced, if_neg h]

theorem displaced_nil (p q : List String) : displaced p q [] = [] := by
  rcases p with _ | ⟨a, p⟩
  · rfl
  · rcases q with _ | ⟨b, q⟩
    · rfl
    · by_cases h : a = b <;> simp [displaced, get?, h]

theorem lookup_append (d : Document) (path inner : String) :
    d.lookup (path ++ "." ++ inner) = (d.lookup path).flatMap (Value.reach (segments inner)) := by
  rw [lookup, segments_append, Value.reach_append]
  rfl

section dotless

variable {path : String} (hdot : '.' ∉ path.toList)
include hdot

theorem lookup_of_dotless (d : Document) : d.lookup path = (d.get? path).toList := by
  rw [lookup, segments_of_dotless hdot, Value.reach_document]
  exact List.flatMap_singleton' _

theorem first?_of_dotless (d : Document) : d.first? path = d.get? path := by
  rw [first?, lookup_of_dotless hdot]
  cases d.get? path <;> rfl

theorem set_of_dotless (v : Value) (d : Document) : d.set path v = d.insert path v := by
  rw [set, segments_of_dotless hdot]
  rfl

end dotless

def below (d : Document) (key : String) : Document :=
  match d.get? key with
  | some (.document inner) => inner
  | _ => []

theorem below_of_get? {key : String} {inner d : Document} (h : d.get? key = some (.document inner)) :
    d.below key = inner := by
  rw [below, h]

theorem below_insert (key : String) (inner d : Document) :
    (d.insert key (.document inner)).below key = inner :=
  below_of_get? (get?_insert d key _)

theorem setAt_cons (key : String) (hp : p ≠ []) (v : Value) (d : Document) :
    setAt (key :: p) v d = d.insert key (.document (setAt p v (d.below key))) := by
  cases p with
  | nil => exact absurd rfl hp
  | cons next rest => rfl

theorem setAt_eq_insert (key : String) (p : List String) (v : Value) (d : Document) :
    ∃ w, setAt (key :: p) v d = d.insert key w := by
  cases p with
  | nil => exact ⟨v, rfl⟩
  | cons next rest => exact ⟨_, rfl⟩

theorem get?_setAt_of_ne {key other : String} (h : key ≠ other) (p : List String) (v : Value)
    (d : Document) : (setAt (key :: p) v d).get? other = d.get? other := by
  obtain ⟨w, hw⟩ := setAt_eq_insert key p v d
  rw [hw, get?_insert_of_ne d key w h]

theorem reach_setAt_cons (key : String) (hp : p ≠ []) (v : Value) (d : Document) (q : List String) :
    (Value.document (setAt (key :: p) v d)).reach (key :: q) =
      (Value.document (setAt p v (d.below key))).reach q := by
  rw [setAt_cons key hp, Value.reach_document, get?_insert]
  exact List.flatMap_singleton _ _

theorem reach_setAt_of_apart (h : Apart p q) (v : Value) (d : Document) :
    (Value.document d).reach q =
      (Value.document (setAt p v d)).reach q ++ displaced p q d := by
  induction h using Apart.induction generalizing d with
  | part a b p q hab =>
    rw [displaced_of_ne hab, List.append_nil, Value.reach_document, Value.reach_document,
      get?_setAt_of_ne hab]
  | share a p q hrest ih =>
    obtain ⟨hp, hq⟩ := hrest.ne_nil
    -- What is no document is written over by one that holds nothing else.
    have hfresh : (Value.document (setAt p v [])).reach q = [] := by
      have hnil := ih []
      rw [displaced_nil, List.append_nil, Value.reach_nil_document hq] at hnil
      exact hnil.symm
    rw [reach_setAt_cons a hp, displaced_cons, Value.reach_document, below]
    rcases d.get? a with _ | w
    · simp [hfresh]
    · cases w with
      | document inner => simpa using ih inner
      | _ => simp [hfresh]

theorem get?_set_of_ne {path key : String} (h : (segments path).head? ≠ some key) (v : Value)
    (d : Document) : (d.set path v).get? key = d.get? key := by
  rw [set]
  rcases hpath : segments path with _ | ⟨first, rest⟩
  · rfl
  · rw [hpath] at h
    exact get?_setAt_of_ne (by simpa using h) rest v d

theorem contains_set {key : String} {d : Document} (path : String) (v : Value)
    (h : d.contains key = true) : (d.set path v).contains key = true := by
  rw [set]
  rcases segments path with _ | ⟨first, rest⟩
  · exact h
  · obtain ⟨w, hw⟩ := setAt_eq_insert first rest v d
    rw [hw]
    exact contains_insert first w h

theorem removeAt_eq_match (key : String) (hp : p ≠ []) (d : Document) : removeAt (key :: p) d =
    match d.get? key with
    | some (.document inner) =>
      ((removeAt p inner).1, d.insert key (.document (removeAt p inner).2))
    | _ => (none, d) := by
  cases p with
  | nil => exact absurd rfl hp
  | cons next rest => rfl

theorem removeAt_cons (key : String) (hp : p ≠ []) (d : Document) :
    (∃ inner, d.get? key = some (.document inner) ∧
      (removeAt (key :: p) d).2 = d.insert key (.document (removeAt p inner).2)) ∨
    (∀ inner, d.get? key ≠ some (.document inner)) ∧ (removeAt (key :: p) d).2 = d := by
  rw [removeAt_eq_match key hp]
  split
  · rename_i inner hinner
    exact Or.inl ⟨inner, hinner, rfl⟩
  · rename_i hno
    exact Or.inr ⟨fun inner hinner => hno inner hinner, rfl⟩

theorem get?_removeAt_of_ne {key other : String} (h : key ≠ other) (p : List String)
    (d : Document) : (removeAt (key :: p) d).2.get? other = d.get? other := by
  by_cases hp : p = []
  · subst hp
    exact get?_erase_of_ne h d
  · rcases removeAt_cons key hp d with ⟨inner, -, hremove⟩ | ⟨-, hremove⟩
    · rw [hremove, get?_insert_of_ne d key _ h]
    · rw [hremove]

theorem reach_removeAt_of_apart (h : Apart p q) (d : Document) :
    (Value.document (removeAt p d).2).reach q = (Value.document d).reach q := by
  induction h using Apart.induction generalizing d with
  | part a b p q hab => rw [Value.reach_document, Value.reach_document, get?_removeAt_of_ne hab]
  | share a p q hrest ih =>
    rw [Value.reach_document, Value.reach_document]
    rcases removeAt_cons a hrest.ne_nil.1 d with ⟨inner, hinner, hremove⟩ | ⟨-, hremove⟩
    · rw [hremove, get?_insert, hinner]
      simpa using ih inner
    · rw [hremove]

theorem removeAt_of_displaced (h : Apart p q) {d : Document} (hd : displaced p q d ≠ []) :
    (removeAt p d).2 = d := by
  induction h using Apart.induction generalizing d with
  | part a b p q hab => exact absurd (displaced_of_ne hab p q d) hd
  | share a p q hrest ih =>
    rcases removeAt_cons a hrest.ne_nil.1 d with ⟨inner, hinner, hremove⟩ | ⟨-, hremove⟩
    · rw [displaced_cons, hinner] at hd
      rw [hremove, ih hd, insert_get? d a _ hinner]
    · exact hremove

theorem get?_remove_of_ne {path key : String} (h : (segments path).head? ≠ some key) (d : Document) :
    (d.remove path).get? key = d.get? key := by
  rw [remove, removeReturning]
  rcases hpath : segments path with _ | ⟨first, rest⟩
  · rfl
  · rw [hpath] at h
    exact get?_removeAt_of_ne (by simpa using h) rest d

theorem contains_remove {path key : String} {d : Document} (hpath : path ≠ key)
    (h : d.contains key = true) : (d.remove path).contains key = true := by
  rw [remove, removeReturning]
  rcases hsegments : segments path with _ | ⟨first, rest⟩
  · exact absurd hsegments (segments_ne_nil path)
  · by_cases hrest : rest = []
    · subst hrest
      have hne : first ≠ key := by
        rintro rfl
        exact hpath (eq_of_segments_singleton hsegments)
      rw [contains, get?_removeAt_of_ne hne]
      exact h
    · rcases removeAt_cons first hrest d with ⟨inner, -, hremove⟩ | ⟨-, hremove⟩
      · rw [hremove]
        exact contains_insert first _ h
      · rw [hremove]
        exact h

end Document

end RelDoc
