import RelDoc.Filter

namespace RelDoc.Filter

/-- Does a document pass a filter? It does not when the evaluation fails. -/
def passes (doc filter : Document) : Bool :=
  match holds doc filter with
  | .ok b => b
  | .error _ => false

def Evaluates (doc filter : Document) : Prop := ∃ b, holds doc filter = .ok b

variable (doc : Document)

theorem holds_eq_passes {filter : Document} (h : Evaluates doc filter) :
    holds doc filter = .ok (passes doc filter) := by
  obtain ⟨b, hb⟩ := h
  rw [passes, hb]

theorem passes_of_holds {filter : Document} {b : Bool} (h : holds doc filter = .ok b) :
    passes doc filter = b := by
  rw [passes, h]

theorem passes_iff (filter : Document) : passes doc filter = true ↔ holds doc filter = .ok true := by
  unfold passes
  split <;> simp_all

theorem holds_nil : holds doc [] = .ok true := by rw [holds]

theorem holds_cons (key : String) (condition : Value) (rest : Document) :
    holds doc ((key, condition) :: rest) =
      (entryHolds doc key condition).bind fun b => if b then holds doc rest else .ok false := by
  rw [holds]; rfl

theorem holds_singleton (key : String) (condition : Value) :
    holds doc [(key, condition)] = entryHolds doc key condition := by
  rw [holds_cons]
  rcases entryHolds doc key condition with e | b
  · rfl
  · cases b <;> simp [Except.bind, holds_nil]

theorem holds_append (f g : Document) :
    holds doc (f ++ g) = (holds doc f).bind fun b => if b then holds doc g else .ok false := by
  induction f with
  | nil => rw [holds_nil]; rfl
  | cons entry rest ih =>
    obtain ⟨key, condition⟩ := entry
    rw [List.cons_append, holds_cons, holds_cons, ih]
    rcases entryHolds doc key condition with e | b
    · rfl
    · cases b <;> rfl

theorem holds_append_ok {f g : Document} {b c : Bool} (hf : holds doc f = .ok b)
    (hg : holds doc g = .ok c) : holds doc (f ++ g) = .ok (b && c) := by
  rw [holds_append, hf]
  cases b <;> simp [Except.bind, hg]

theorem holds_append_eq_true (f g : Document) :
    holds doc (f ++ g) = .ok true ↔ holds doc f = .ok true ∧ holds doc g = .ok true := by
  rw [holds_append]
  rcases holds doc f with e | b
  · simp [Except.bind]
  · cases b <;> simp [Except.bind]

theorem allHold_cons (f : Document) (rest : List Value) :
    allHold doc (.document f :: rest) =
      (holds doc f).bind fun b => if b then allHold doc rest else .ok false := by
  rw [allHold]; rfl

theorem anyHolds_cons (f : Document) (rest : List Value) :
    anyHolds doc (.document f :: rest) =
      (holds doc f).bind fun b => if b then .ok true else anyHolds doc rest := by
  rw [anyHolds]; rfl

theorem allHold_eq_true (fs : List Document) :
    allHold doc (fs.map .document) = .ok true ↔ ∀ f ∈ fs, holds doc f = .ok true := by
  induction fs with
  | nil => simp [allHold]
  | cons f rest ih =>
    rw [List.map_cons, allHold_cons, List.forall_mem_cons, ← ih]
    rcases holds doc f with e | b
    · simp [Except.bind]
    · cases b <;> simp [Except.bind]

theorem allHold_ok {fs : List Document} (h : ∀ f ∈ fs, Evaluates doc f) :
    allHold doc (fs.map .document) = .ok (fs.all (passes doc)) := by
  induction fs with
  | nil => simp [allHold]
  | cons f rest ih =>
    obtain ⟨hf, hrest⟩ := List.forall_mem_cons.mp h
    rw [List.map_cons, allHold_cons, holds_eq_passes doc hf, ih hrest, List.all_cons]
    cases passes doc f <;> rfl

theorem anyHolds_ok {fs : List Document} (h : ∀ f ∈ fs, Evaluates doc f) :
    anyHolds doc (fs.map .document) = .ok (fs.any (passes doc)) := by
  induction fs with
  | nil => simp [anyHolds]
  | cons f rest ih =>
    obtain ⟨hf, hrest⟩ := List.forall_mem_cons.mp h
    rw [List.map_cons, anyHolds_cons, holds_eq_passes doc hf, ih hrest, List.any_cons]
    cases passes doc f <;> rfl

theorem entryHolds_and (fs : List Document) :
    entryHolds doc "$and" (.array (fs.map .document)) = allHold doc (fs.map .document) := by
  simp [entryHolds, isDocument]

theorem entryHolds_or (fs : List Document) :
    entryHolds doc "$or" (.array (fs.map .document)) = anyHolds doc (fs.map .document) := by
  simp [entryHolds, isDocument]

theorem holds_column {column : String} (hcolumn : isOperator column = false) (condition : Value) :
    holds doc [(column, condition)] = conditionHolds (doc.lookup column) condition := by
  have hlist : ¬(column = "$and" ∨ column = "$or" ∨ column = "$nor") := by
    rintro (rfl | rfl | rfl) <;> exact absurd hcolumn (by decide)
  rw [holds_singleton]
  cases condition <;> simp [entryHolds, conditionHolds, hlist, hcolumn]

theorem entryHolds_list_key {key : String} (hkey : key = "$and" ∨ key = "$or") {v : Value} {b : Bool}
    (h : entryHolds doc key v = .ok b) : ∃ items, v = .array items := by
  have hlist : key = "$and" ∨ key = "$or" ∨ key = "$nor" := hkey.imp_right Or.inl
  cases v with
  | array items => exact ⟨items, rfl⟩
  | _ => simp [entryHolds, hlist, missing] at h

theorem operatorsHold_singleton (whole : Document) (reached : List Value) (op : String)
    (operand : Value) : operatorsHold whole reached [(op, operand)] =
      operatorHolds whole reached op operand := by
  rw [operatorsHold]
  rcases operatorHolds whole reached op operand with e | b
  · rfl
  · cases b <;> rfl

theorem operatorHolds_plain {op : String} (hnot : op ≠ "$not") (helem : op ≠ "$elemMatch")
    (whole : Document) (reached : List Value) (operand : Value) :
    operatorHolds whole reached op operand = plainOperatorHolds whole reached op operand := by
  cases operand <;> simp [operatorHolds, hnot, helem]

theorem conditionHolds_operator {op : String} (hop : isOperator op = true) (hnot : op ≠ "$not")
    (helem : op ≠ "$elemMatch") (reached : List Value) (operand : Value) :
    conditionHolds reached (.document [(op, operand)]) =
      plainOperatorHolds [(op, operand)] reached op operand := by
  have hops : Document.isOperators [(op, operand)] = true := hop
  rw [conditionHolds, if_pos hops, operatorsHold_singleton, operatorHolds_plain hnot helem]

end RelDoc.Filter
