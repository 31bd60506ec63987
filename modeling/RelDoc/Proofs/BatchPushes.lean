import RelDoc.Mutation
import RelDoc.Proofs.FieldUpdates
import RelDoc.Proofs.FirstOccurrences
import RelDoc.Proofs.Increments

namespace RelDoc

namespace Update

variable {items values kept : List Value} {d : Document} {column : String}

/-- Of the values of a list those that are new when they come: they are equal to no item, and to none of
the new values before. -/
inductive NewTo (items : List Value) : List Value → List Value → Prop
  | nil : NewTo items [] []
  | known {values kept : List Value} {u v : Value} (h : NewTo items values kept)
      (hu : u ∈ items ++ kept) (heq : u.looseEq v = true) : NewTo items (values ++ [v]) kept
  | new {values kept : List Value} {v : Value} (h : NewTo items values kept)
      (hnew : ∀ u ∈ items ++ kept, u.looseEq v = false) : NewTo items (values ++ [v]) (kept ++ [v])

theorem foldl_appendNew (items values : List Value) :
    ∃ kept, values.foldl appendNew items = items ++ kept ∧ NewTo items values kept := by
  induction values using List.reverseRecOn with
  | nil => exact ⟨[], (List.append_nil items).symm, .nil⟩
  | append_singleton values v ih =>
    obtain ⟨kept, hfold, hkept⟩ := ih
    rw [List.foldl_append, hfold, List.foldl_cons, List.foldl_nil, appendNew]
    split
    · rename_i hany
      obtain ⟨u, hu, heq⟩ := List.any_eq_true.mp hany
      exact ⟨kept, rfl, hkept.known hu heq⟩
    · rename_i hany
      refine ⟨kept ++ [v], List.append_assoc items kept [v], hkept.new fun u hu => ?_⟩
      rw [Bool.not_eq_true, List.any_eq_false] at hany
      simpa using hany u hu

theorem NewTo.sublist (h : NewTo items values kept) : kept.Sublist values := by
  induction h with
  | nil => exact .slnil
  | known _ _ _ ih => exact ih.trans (List.sublist_append_left _ _)
  | new _ _ ih => exact ih.append (.refl _)

theorem NewTo.exists_looseEq (h : NewTo items values kept)
    (hvalues : ∀ v ∈ values, v.looseEq v = true) :
    ∀ v ∈ values, ∃ u ∈ items ++ kept, u.looseEq v = true := by
  induction h with
  | nil => simp
  | @known values kept u v _ hu heq ih =>
    rw [List.forall_mem_append, List.forall_mem_singleton] at hvalues ⊢
    exact ⟨ih hvalues.1, u, hu, heq⟩
  | @new values kept v _ _ ih =>
    rw [List.forall_mem_append, List.forall_mem_singleton] at hvalues ⊢
    refine ⟨fun w hw => ?_, v, by simp, hvalues.2⟩
    obtain ⟨u, hu, heq⟩ := ih hvalues.1 w hw
    rw [← List.append_assoc]
    exact ⟨u, List.mem_append_left _ hu, heq⟩

theorem NewTo.pairwise (h : NewTo items values kept)
    (hitems : items.Pairwise fun u v => u.looseEq v = false) :
    (items ++ kept).Pairwise fun u v => u.looseEq v = false := by
  induction h with
  | nil => rwa [List.append_nil]
  | known _ _ _ ih => exact ih
  | new _ hnew ih =>
    rw [← List.append_assoc, List.pairwise_append]
    refine ⟨ih, List.pairwise_singleton _ _, fun u hu w hw => ?_⟩
    rw [List.mem_singleton.mp hw]
    exact hnew u hu

def listIn? (d : Document) (column : String) : Option (List Value) :=
  match d.get? column with
  | none => some []
  | some v => v.asArray?

structure Relisted (column : String) (items : List Value) (before after : Document) : Prop where
  items : after.get? column = some (.array items)
  others : after.erase column = before.erase column

theorem relisted_insert (column : String) (items : List Value) (d : Document) :
    Relisted column items d (d.insert column (.array items)) :=
  ⟨Document.get?_insert d column _, Document.erase_insert d column _⟩

theorem Relisted.trans {before after last : Document} {more : List Value}
    (h : Relisted column items before after) (h' : Relisted column more after last) :
    Relisted column more before last :=
  ⟨h'.items, h'.others.trans h.others⟩

theorem applied_edit {op : String} {argument : Value} {after : Document}
    (h : edit op d column argument = .ok after) :
    applied [(op, .document [(column, argument)])] d = .ok (after, !Document.structEq after d) := by
  rw [applied_eq_ok]
  refine ⟨?_, rfl⟩
  rw [run, editAll, h]
  rfl

theorem push_each (hdot : '.' ∉ column.toList) (unique : Bool) (hd : listIn? d column = some items)
    (values : List Value) : push unique d column (.document [("$each", .array values)]) =
      .ok (d.insert column
        (.array (if unique then values.foldl appendNew items else items ++ values))) := by
  rw [listIn?] at hd
  have hadditions : additions (.document [("$each", .array values)]) = .ok values := rfl
  rw [push, hadditions, Document.first?_of_dotless hdot]
  rcases hget : d.get? column with _ | v
  · rw [hget] at hd
    obtain rfl := Option.some.inj hd
    rw [← Document.set_of_dotless hdot]
    rfl
  · rw [hget] at hd
    cases v with
    | array _ =>
      obtain rfl := Option.some.inj hd
      rw [← Document.set_of_dotless hdot]
      rfl
    | _ => cases hd

theorem reject_ok (test : Value → Bool) (items : List Value) :
    reject (fun v => .ok (test v)) items = .ok (items.filter fun v => !test v) := by
  induction items with
  | nil => rfl
  | cons v rest ih =>
    rw [reject, ih, List.filter_cons]
    cases test v <;> rfl

def pulled (test : Value → Bool) (path : String) (d : Document) : Document :=
  match d.first? path with
  | some (.array items) => d.set path (.array (items.filter fun u => !test u))
  | _ => d

theorem pull_ok (test : Value → Bool) (d : Document) (path : String) :
    Update.pull (fun u => .ok (test u)) d path = .ok (pulled test path d) := by
  rw [Update.pull, pulled]
  rcases d.first? path with _ | v
  · rfl
  · cases v with
    | array items =>
      dsimp only
      rw [reject_ok]
      rfl
    | _ => rfl

theorem pullAll_ok (values : List Value) (d : Document) (path : String) :
    pullAll d path (.array values) = .ok (pulled (fun u => values.any (u.looseEq ·)) path d) :=
  pull_ok (fun u => values.any (u.looseEq ·)) d path

theorem pullAll_array (hdot : '.' ∉ column.toList) (hd : d.get? column = some (.array items))
    (values : List Value) : pullAll d column (.array values) =
      .ok (d.insert column (.array (items.filter fun u => !values.any (u.looseEq ·)))) := by
  rw [pullAll_ok, pulled, Document.first?_of_dotless hdot, hd, ← Document.set_of_dotless hdot]

theorem filter_pulled {more : List Value} (hmore : ∀ v ∈ more, v ∈ values ∧ v.looseEq v = true) :
    ((items ++ more).filter fun u => !values.any (u.looseEq ·)) =
      items.filter fun u => !values.any (u.looseEq ·) := by
  have hnone : (more.filter fun u => !values.any (u.looseEq ·)) = [] := by
    rw [List.filter_eq_nil_iff]
    intro v hv
    obtain ⟨hmem, heq⟩ := hmore v hv
    rw [Bool.not_eq_true, Bool.not_eq_false', List.any_eq_true]
    exact ⟨v, hmem, heq⟩
  rw [List.filter_append, hnone, List.append_nil]

end Update

namespace Mutation

open Update

variable {column : String} {l : Literal} {items values : List Value} {d : Document}

theorem isList_of_toValue (hl : l.toValue = .array values) : l.isList = true := by
  cases l with
  | array _ => rfl
  | native v =>
    obtain rfl : v = .array values := hl
    rfl
  | integer n =>
    rcases Value.ofInt64_eq n with ⟨m, -, heq⟩ | heq
    all_goals
      rw [Literal.toValue, heq] at hl
      cases hl
  | _ => cases hl

theorem push_list (hl : l.toValue = .array values) (column : String) (unique : Bool) :
    (push column l unique).operations =
      [(pushOperator unique, .document [(column, .document [("$each", .array values)])])] := by
  rw [push, if_pos (isList_of_toValue hl), hl]
  rfl

theorem pull_list (hl : l.toValue = .array values) (column : String) :
    (pull column l).operations = [("$pullAll", .document [(column, .array values)])] := by
  rw [pull, if_pos (isList_of_toValue hl), hl]
  rfl

theorem edit_pushOperator (unique : Bool) (d : Document) (column : String) (argument : Value) :
    edit (pushOperator unique) d column argument = Update.push unique d column argument := by
  cases unique <;> rfl

theorem edit_pullAll (d : Document) (column : String) (argument : Value) :
    edit "$pullAll" d column argument = Update.pullAll d column argument := rfl

/-- A list that is pushed goes behind the array, as a whole or without what is not new. Pulling it then
leaves the elements of the array that are equal to none of its values. -/
theorem applied_push_pull (hdot : '.' ∉ column.toList) (hl : l.toValue = .array values)
    (hvalues : ∀ v ∈ values, v.isNanFree = true) (hd : listIn? d column = some items) :
    ∃ kept, NewTo items values kept ∧ kept.Sublist values ∧
      (∀ v ∈ values, ∃ u ∈ items ++ kept, u.looseEq v = true) ∧
      (items.Pairwise (fun u v => u.looseEq v = false) →
        (items ++ kept).Pairwise fun u v => u.looseEq v = false) ∧
      ∀ unique : Bool, ∃ pushed changed pulled changed',
        applied (push column l unique).operations d = .ok (pushed, changed) ∧
          Relisted column (items ++ if unique then kept else values) d pushed ∧
          applied (pull column l).operations pushed = .ok (pulled, changed') ∧
          Relisted column (items.filter fun u => !values.any (u.looseEq ·)) d pulled := by
  obtain ⟨kept, hfold, hkept⟩ := foldl_appendNew items values
  have hself : ∀ v ∈ values, v.looseEq v = true := fun v hv =>
    Value.looseEq_of_isNanFree (hvalues v hv)
  refine ⟨kept, hkept, hkept.sublist, hkept.exists_looseEq hself, hkept.pairwise, fun unique => ?_⟩
  have hadded : (if unique then values.foldl appendNew items else items ++ values) =
      items ++ if unique then kept else values := by
    cases unique
    · rfl
    · exact hfold
  have hmore : ∀ v ∈ (if unique then kept else values), v ∈ values ∧ v.looseEq v = true := by
    intro v hv
    have hmem : v ∈ values := by
      cases unique
      · exact hv
      · exact hkept.sublist.subset hv
    exact ⟨hmem, hself v hmem⟩
  have hpush := push_each hdot unique hd values
  rw [hadded, ← edit_pushOperator] at hpush
  have hrelisted := relisted_insert column (items ++ if unique then kept else values) d
  have hpull := pullAll_array hdot hrelisted.items values
  rw [filter_pulled hmore, ← edit_pullAll] at hpull
  rw [push_list hl, pull_list hl]
  exact ⟨_, _, _, _, applied_edit hpush, hrelisted, applied_edit hpull,
    hrelisted.trans (relisted_insert column _ _)⟩

theorem applied_push_pull_numbers :
    let values : List Value := [.int32 2, .int32 1, .string "x", .int64 2]
    let l : Literal := .native (.array values)
    let d : Document := [("_id", .int32 7), ("tags", .array [.int64 1, .string "y"]), ("n", .null)]
    '.' ∉ "tags".toList ∧ l.toValue = .array values ∧ (∀ v ∈ values, v.isNanFree = true) ∧
      listIn? d "tags" = some [.int64 1, .string "y"] ∧ ∃ pushed changed pulled changed',
        applied (push "tags" l true).operations d = .ok (pushed, changed) ∧
          pushed.get? "tags" = some (.array [.int64 1, .string "y", .int32 2, .string "x"]) ∧
          applied (pull "tags" l).operations pushed = .ok (pulled, changed') ∧
          pulled.get? "tags" = some (.array [.string "y"]) := by
  intro values l d
  have hdot : '.' ∉ "tags".toList := by decide
  have hvalues : ∀ v ∈ values, v.isNanFree = true := by decide
  have hd : listIn? d "tags" = some [.int64 1, .string "y"] := rfl
  obtain ⟨kept, -, -, -, -, hall⟩ := applied_push_pull (l := l) hdot rfl hvalues hd
  obtain ⟨pushed, changed, pulled, changed', hpush, -, hpull, hpulled⟩ := hall true
  refine ⟨hdot, rfl, hvalues, hd, pushed, changed, pulled, changed', hpush, ?_, hpull, ?_⟩
  · have hrun : applied (push "tags" l true).operations d = .ok ([("_id", .int32 7),
        ("tags", .array [.int64 1, .string "y", .int32 2, .string "x"]), ("n", .null)], true) := rfl
    rw [hpush] at hrun
    obtain ⟨rfl, -⟩ := Prod.mk.inj (Except.ok.inj hrun)
    rfl
  · rw [hpulled.items]
    rfl

end Mutation

end RelDoc
