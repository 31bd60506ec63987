import RelDoc.Proofs.LooseEquality
import RelDoc.Proofs.PathWrites

namespace RelDoc

open RelDoc.Path

namespace Value

/-- The way down from a value along a path finds these values, in order. A document is entered by key, an
array at an index where the segment is a numeral. Any other segment goes on in the documents among the
items of an array. -/
inductive Descends : List String → Value → List Value → Prop
  | arrived (v : Value) : Descends [] v [v]
  | field {segment path fields v found} (hfield : Document.get? fields segment = some v)
      (h : Descends path v found) : Descends (segment :: path) (.document fields) found
  | noField {segment path fields} (hnone : Document.get? fields segment = none) :
      Descends (segment :: path) (.document fields) []
  | item {segment path i items v found} (hindex : index? segment = some i)
      (hitem : items[i]? = some v) (h : Descends path v found) :
      Descends (segment :: path) (.array items) found
  | noItem {segment path i items} (hindex : index? segment = some i) (hnone : items[i]? = none) :
      Descends (segment :: path) (.array items) []
  | itemsDone {segment path} (hindex : index? segment = none) :
      Descends (segment :: path) (.array []) []
  | itemEntered {segment path fields items found more} (hindex : index? segment = none)
      (h : Descends (segment :: path) (.document fields) found)
      (hmore : Descends (segment :: path) (.array items) more) :
      Descends (segment :: path) (.array (.document fields :: items)) (found ++ more)
  | itemPassed {segment path v items found} (hindex : index? segment = none)
      (hitem : v.asDocument? = none) (h : Descends (segment :: path) (.array items) found) :
      Descends (segment :: path) (.array (v :: items)) found
  | scalar {segment path v} (hscalar : v.isScalar = true) : Descends (segment :: path) v []

variable {segment : String} {path : List String} {v : Value} {items found : List Value}

theorem reach_array_of_index {i : Nat} (hindex : index? segment = some i) :
    (array items).reach (segment :: path) = items[i]?.toList.flatMap (reach path) := by
  rw [reach, step, hindex]

section fanOut

variable (hindex : index? segment = none)
include hindex

theorem reach_array_nil : (array []).reach (segment :: path) = [] := by
  rw [reach, step, hindex]
  rfl

theorem reach_array_document (fields : Document) :
    (array (document fields :: items)).reach (segment :: path) =
      (document fields).reach (segment :: path) ++ (array items).reach (segment :: path) := by
  simp only [reach, step, hindex, List.filterMap_cons]
  cases Document.get? fields segment with
  | none => rfl
  | some w => rw [List.flatMap_cons, Option.toList_some, List.flatMap_singleton]

theorem reach_array_of_asDocument? (hitem : v.asDocument? = none) :
    (array (v :: items)).reach (segment :: path) = (array items).reach (segment :: path) := by
  rw [reach, reach, step, step, hindex]
  cases v with
  | document fields => exact absurd hitem (Option.some_ne_none fields)
  | _ => rfl

end fanOut

theorem reach_of_isScalar (hscalar : v.isScalar = true) : v.reach (segment :: path) = [] := by
  cases v with
  | array items => exact absurd hscalar Bool.false_ne_true
  | document fields => exact absurd hscalar Bool.false_ne_true
  | _ => rfl

theorem Descends.reach (h : Descends path v found) : v.reach path = found := by
  induction h with
  | arrived v => rfl
  | field hfield _ ih =>
    rw [reach_document, hfield]
    exact (List.flatMap_singleton _ _).trans ih
  | noField hnone =>
    rw [reach_document, hnone]
    rfl
  | item hindex hitem _ ih =>
    rw [reach_array_of_index hindex, hitem]
    exact (List.flatMap_singleton _ _).trans ih
  | noItem hindex hnone =>
    rw [reach_array_of_index hindex, hnone]
    rfl
  | itemsDone hindex => exact reach_array_nil hindex
  | itemEntered hindex _ _ ih ihmore => rw [reach_array_document hindex, ih, ihmore]
  | itemPassed hindex hitem _ ih => rw [reach_array_of_asDocument? hindex hitem, ih]
  | scalar hscalar => exact reach_of_isScalar hscalar

section furtherDown

variable (hrest : ∀ v, ∃ found, Descends path v found)
include hrest

theorem exists_descends_document (segment : String) (fields : Document) :
    ∃ found, Descends (segment :: path) (document fields) found := by
  rcases hfield : fields.get? segment with _ | v
  · exact ⟨[], .noField hfield⟩
  · obtain ⟨found, h⟩ := hrest v
    exact ⟨found, .field hfield h⟩

theorem exists_descends_array (segment : String) (items : List Value) :
    ∃ found, Descends (segment :: path) (array items) found := by
  rcases hindex : index? segment with _ | i
  · -- The segment stays while the items go by, so this is an induction on them and not on the path.
    induction items with
    | nil => exact ⟨[], .itemsDone hindex⟩
    | cons v items ih =>
      obtain ⟨more, hmore⟩ := ih
      cases v with
      | document fields =>
        obtain ⟨found, h⟩ := exists_descends_document hrest segment fields
        exact ⟨found ++ more, .itemEntered hindex h hmore⟩
      | _ => exact ⟨more, .itemPassed hindex rfl hmore⟩
  · rcases hitem : items[i]? with _ | v
    · exact ⟨[], .noItem hindex hitem⟩
    · obtain ⟨found, h⟩ := hrest v
      exact ⟨found, .item hindex hitem h⟩

end furtherDown

theorem exists_descends (path : List String) (v : Value) : ∃ found, Descends path v found := by
  induction path generalizing v with
  | nil => exact ⟨[v], .arrived v⟩
  | cons segment rest ih =>
    cases v with
    | document fields => exact exists_descends_document ih segment fields
    | array items => exact exists_descends_array ih segment items
    | _ => exact ⟨[], .scalar rfl⟩

theorem descends_iff : Descends path v found ↔ v.reach path = found := by
  refine ⟨Descends.reach, ?_⟩
  rintro rfl
  obtain ⟨found, h⟩ := exists_descends path v
  rwa [h.reach]

theorem forall₂_descends_iff {vs : List Value} {parts : List (List Value)} :
    List.Forall₂ (Descends path) vs parts ↔ vs.map (reach path) = parts := by
  have hrules : Descends path = fun v found => v.reach path = found := by
    funext v found
    exact propext descends_iff
  rw [← List.forall₂_eq_eq_eq, List.forall₂_map_left_iff, hrules]

end Value

namespace Document

open Value

theorem descends_lookup (d : Document) (path : String) :
    Descends (segments path) (.document d) (d.lookup path) :=
  descends_iff.mpr rfl

theorem lookup_composed (d : Document) (p q : String) :
    Descends (segments p) (.document d) (d.lookup p) ∧
      ∀ found, d.lookup (p ++ "." ++ q) = found ↔
        ∃ parts, List.Forall₂ (Descends (segments q)) (d.lookup p) parts ∧
          parts.flatten = found := by
  refine ⟨descends_lookup d p, fun found => ?_⟩
  rw [lookup_append, List.flatMap_def]
  constructor
  · intro hfound
    exact ⟨_, forall₂_descends_iff.mpr rfl, hfound⟩
  · rintro ⟨parts, hparts, hfound⟩
    rwa [forall₂_descends_iff.mp hparts]

example :
    let item (price : Int32) : Value := .document [("price", .int32 price)]
    let d : Document := [("rows", .array [.array [item 5, .int32 7, item 12], item 9])]
    d.lookup "rows.0" = [.array [item 5, .int32 7, item 12]] ∧
      d.lookup "rows.0.price" = [.int32 5, .int32 12] ∧
      d.lookup "rows.price" = [.int32 9] := ⟨rfl, rfl, rfl⟩

end Document

end RelDoc
