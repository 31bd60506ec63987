import RelDoc.Proofs.BatchPushes

namespace RelDoc

namespace Filter

variable {v : Value}

theorem anyValue_singleton (test : Value → Bool) (u : Value) :
    anyValue test [u] = (test u || (elements u).any test) := by
  cases u <;> simp [anyValue, elements]

theorem mem_elements {x u : Value} : x ∈ elements u ↔ ∃ items, u = .array items ∧ x ∈ items := by
  cases u <;> simp [elements]

theorem valueHolds_ok (hdocument : ∀ fields, v ≠ .document fields)
    (hregex : ∀ pattern options, v ≠ .regex pattern options) (u : Value) :
    valueHolds u v = .ok (u.looseEq v || (elements u).any (·.looseEq v)) := by
  have hcondition : valueHolds u v = equalsAny [u] v := by
    cases v with
    | document fields => exact absurd rfl (hdocument fields)
    | _ => cases u <;> rfl
  have hequal : equalsAny [u] v = .ok (anyValue (·.looseEq v) [u]) := by
    cases v with
    | regex pattern options => exact absurd rfl (hregex pattern options)
    | _ => rfl
  rw [hcondition, hequal, anyValue_singleton]

end Filter

namespace Update

variable {test stricter : Value → Bool} {path : String} {d : Document}

def NestedIn (v : Value) (path : String) (d : Document) : Prop :=
  ∃ items nested u, d.first? path = some (.array items) ∧ .array nested ∈ items ∧ u ∈ nested ∧
    u.looseEq v = true

theorem pulled_eq_iff (hstrict : ∀ u, stricter u = true → test u = true) :
    pulled test path d = pulled stricter path d ↔
      ∀ items, d.first? path = some (.array items) → ∀ u ∈ items, test u = true → stricter u = true := by
  unfold pulled
  split
  · rename_i items hitems
    constructor
    · intro hsame more hmore u hu htest
      rw [hitems] at hmore
      obtain rfl := Value.array.inj (Option.some.inj hmore)
      have hkept := Value.array.inj (Document.set_inj hsame)
      by_contra hstricter
      rw [Bool.not_eq_true] at hstricter
      have hmem : u ∈ items.filter fun u => !stricter u := by simp [hu, hstricter]
      rw [← hkept, List.mem_filter, htest] at hmem
      exact absurd hmem.2 (by simp)
    · intro hall
      have hkept : ∀ u ∈ items, (!test u) = !stricter u := fun u hu =>
        congrArg _ (Bool.eq_iff_iff.mpr ⟨hall items hitems u hu, hstrict u⟩)
      rw [List.filter_congr hkept]
  · rename_i hnone
    exact iff_of_true rfl fun items hitems => absurd hitems (hnone items)

end Update

namespace Mutation

open Update RelDoc.Filter

variable {l : Literal} {column : String} {d : Document}

theorem pull_single (hlist : l.isList = false) (column : String) :
    (pull column l).operations = [("$pull", .document [(column, l.toValue)])] := by
  rw [pull, hlist]
  rfl

theorem ne_array_of_isList (hlist : l.isList = false) (values : List Value) :
    l.toValue ≠ .array values := by
  intro hl
  rw [isList_of_toValue hl] at hlist
  cases hlist

/-- A value is pulled alone and in a list. The documents are the same unless the array holds arrays with
the value in them; only the value that is pulled alone takes these. -/
theorem pull_single_eq_iff (hlist : l.isList = false) (hdocument : ∀ fields, l.toValue ≠ .document fields)
    (hregex : ∀ pattern options, l.toValue ≠ .regex pattern options) (column : String) (d : Document) :
    ∃ alone inList changed changed',
      applied (pull column l).operations d = .ok (alone, changed) ∧
        applied (pull column (.array [l])).operations d = .ok (inList, changed') ∧
        inList = pulled (·.looseEq l.toValue) column d ∧
        alone = pulled (fun u => u.looseEq l.toValue || (elements u).any (·.looseEq l.toValue)) column d ∧
        (alone = inList ↔ ¬NestedIn l.toValue column d) := by
  have hone : edit "$pull" d column l.toValue =
      .ok (pulled (fun u => u.looseEq l.toValue || (elements u).any (·.looseEq l.toValue)) column d) := by
    rw [← pull_ok, ← funext (valueHolds_ok hdocument hregex)]
    rfl
  have hlisted : edit "$pullAll" d column (.array [l.toValue]) =
      .ok (pulled (·.looseEq l.toValue) column d) := by
    rw [edit_pullAll, pullAll_ok]
    simp
  rw [pull_single hlist, pull_list (l := .array [l]) rfl]
  refine ⟨_, _, _, _, applied_edit hone, applied_edit hlisted, rfl, rfl, ?_⟩
  rw [pulled_eq_iff fun u hu => by simp [hu]]
  constructor
  · rintro hall ⟨items, nested, u, hitems, hnested, hu, heq⟩
    have hloose : (Value.array nested).looseEq l.toValue = true := by
      apply hall items hitems _ hnested
      simp only [elements, Bool.or_eq_true, List.any_eq_true]
      exact Or.inr ⟨u, hu, heq⟩
    obtain ⟨values, hvalues⟩ := Value.eq_array_of_rank (Value.rank_of_looseEq hloose).symm
    exact ne_array_of_isList hlist values hvalues
  · intro hnone items hitems u hu htest
    rw [Bool.or_eq_true, List.any_eq_true] at htest
    rcases htest with hequal | ⟨x, hx, hequal⟩
    · exact hequal
    · obtain ⟨nested, rfl, hx⟩ := mem_elements.mp hx
      exact absurd ⟨items, nested, x, hitems, hu, hx, hequal⟩ hnone

theorem pull_single_eq_iff_nested :
    let l : Literal := .integer 1
    let d : Document := [("_id", .int32 1), ("a", .array [.array [.int32 1, .int32 2], .double 1, .int32 3])]
    l.isList = false ∧ (∀ fields, l.toValue ≠ .document fields) ∧
      (∀ pattern options, l.toValue ≠ .regex pattern options) ∧ NestedIn l.toValue "a" d ∧
      ∃ alone inList changed changed', alone ≠ inList ∧
        applied (pull "a" l).operations d = .ok (alone, changed) ∧
        applied (pull "a" (.array [l])).operations d = .ok (inList, changed') ∧
        alone = [("_id", .int32 1), ("a", .array [.int32 3])] ∧
        inList = [("_id", .int32 1), ("a", .array [.array [.int32 1, .int32 2], .int32 3])] := by
  intro l d
  have hl : l.toValue = .int32 1 := rfl
  have hdocument : ∀ fields, l.toValue ≠ .document fields := by
    rw [hl]
    nofun
  have hregex : ∀ pattern options, l.toValue ≠ .regex pattern options := by
    rw [hl]
    nofun
  have hnested : NestedIn l.toValue "a" d :=
    ⟨_, [.int32 1, .int32 2], .int32 1, rfl, by simp, by simp, by decide +kernel⟩
  obtain ⟨alone, inList, changed, changed', halone, hinList, hlisted, hsingle, hsame⟩ :=
    pull_single_eq_iff (l := l) rfl hdocument hregex "a" d
  refine ⟨rfl, hdocument, hregex, hnested, alone, inList, changed, changed',
    fun heq => hsame.mp heq hnested, halone, hinList, ?_, ?_⟩
  · rw [hsingle]
    rfl
  · rw [hlisted]
    rfl

end Mutation

end RelDoc
