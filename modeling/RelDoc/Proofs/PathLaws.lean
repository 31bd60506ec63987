import RelDoc.Proofs.FieldConditions

namespace RelDoc

open RelDoc.Path

namespace Document

variable {p : List String} {v w : Value} {d : Document}

theorem setAt_setAt (p : List String) (v w : Value) (d : Document) :
    setAt p w (setAt p v d) = setAt p w d := by
  induction p generalizing d with
  | nil => rfl
  | cons key rest ih =>
    by_cases hrest : rest = []
    · subst hrest
      exact insert_insert d key v w
    · rw [setAt_cons key hrest v, setAt_cons key hrest w, setAt_cons key hrest w,
        below_insert, ih, insert_insert]

theorem LeadsTo.setAt_self (h : LeadsTo v p d) : Document.setAt p v d = d := by
  induction h using LeadsTo.induction with
  | last key d hv => exact insert_get? d key v hv
  | inside key p d inner hp hinner hleads ih =>
    rw [setAt_cons key hp, below_of_get? hinner, ih, insert_get? d key _ hinner]

theorem removeAt_of_get? {key : String} {inner : Document} (hp : p ≠ [])
    (h : d.get? key = some (.document inner)) :
    removeAt (key :: p) d = ((removeAt p inner).1, d.insert key (.document (removeAt p inner).2)) := by
  rw [removeAt_eq_match key hp, h]

theorem LeadsTo.removed (h : LeadsTo v p d) : (Document.removeAt p d).1 = some v := by
  induction h using LeadsTo.induction with
  | last key d hv => exact hv
  | inside key p d inner hp hinner hleads ih =>
    rw [removeAt_of_get? hp hinner]
    exact ih

theorem LeadsTo.reach_removeAt (h : LeadsTo v p d) :
    (Value.document (Document.removeAt p d).2).reach p = [] := by
  induction h using LeadsTo.induction with
  | last key d hv =>
    rw [Value.reach_document, Document.removeAt, get?_erase]
    rfl
  | inside key p d inner hp hinner hleads ih =>
    rw [Value.reach_document, removeAt_of_get? hp hinner, get?_insert]
    exact (List.flatMap_singleton _ _).trans ih

section join

variable {head : String} (hdot : '.' ∉ head.toList)
include hdot

theorem segments_join (rest : String) :
    segments (head ++ "." ++ rest) = head :: segments rest := by
  rw [segments_append, segments_of_dotless hdot, List.singleton_append]

theorem lookup_join (rest : String) (d : Document) : d.lookup (head ++ "." ++ rest) =
    (d.get? head).toList.flatMap (Value.reach (segments rest)) := by
  rw [lookup_append, lookup_of_dotless hdot]

theorem set_join (rest : String) (v : Value) (d : Document) : d.set (head ++ "." ++ rest) v =
    d.insert head (.document ((d.below head).set rest v)) := by
  rw [set, segments_join hdot, setAt_cons head (segments_ne_nil rest)]
  rfl

theorem removeReturning_join (rest : String) (d : Document) :
    d.removeReturning (head ++ "." ++ rest) =
      match d.get? head with
      | some (.document inner) =>
        ((removeReturning inner rest).1, d.insert head (.document (remove inner rest)))
      | _ => (none, d) := by
  rw [removeReturning, segments_join hdot, removeAt_eq_match head (segments_ne_nil rest)]
  rfl

end join

theorem path_lens (d : Document) (path : String) (v w : Value) :
    (d.set path v).lookup path = [v] ∧
      (d.set path v).set path w = d.set path w ∧
      ((d.set path v).removeReturning path).1 = some v ∧
      ((d.set path v).remove path).lookup path = [] ∧
      ∀ u, LeadsTo u (segments path) d → d.set path u = d := by
  have hwritten : LeadsTo v (segments path) (d.set path v) := leadsTo_set path v d
  refine ⟨?read, ?again, ?removed, ?gone, fun u hu => ?same⟩
  case read => exact hwritten.reach
  case again => exact setAt_setAt (segments path) v w d
  case removed => exact hwritten.removed
  case gone => exact hwritten.reach_removeAt
  case same => exact hu.setAt_self

theorem path_lens_numerals :
    let d : Document := [("n", .array [.int32 7]), ("", .document [("0", .int32 5), ("", .null)])]
    LeadsTo (.int32 5) (segments ".0") d ∧ d.set ".0" (.int32 5) = d ∧
      d.lookup "n.0" = [.int32 7] ∧ (d.set "n.0" .null).lookup "n.0" = [.null] ∧
      ((d.set "n.0" .null).remove "n.0").lookup "n.0" = [] := by
  intro d
  have hleads : LeadsTo (.int32 5) (segments ".0") d := ⟨_, rfl, rfl⟩
  obtain ⟨hread, -, -, hgone, -⟩ := path_lens d "n.0" .null .null
  obtain ⟨-, -, -, -, hsame⟩ := path_lens d ".0" .null .null
  exact ⟨hleads, hsame (.int32 5) hleads, rfl, hread, hgone⟩

end Document

end RelDoc
