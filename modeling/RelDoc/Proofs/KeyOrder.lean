import RelDoc.Proofs.EqualityLaws

namespace RelDoc

namespace Value

mutual

def sameOrder : Value → Value → Bool
  | .array as, .array bs => sameOrderItems as bs
  | .document as, .document bs => sameOrderFields as bs
  | _, _ => true
termination_by structural a => a

def sameOrderItems : List Value → List Value → Bool
  | [], [] => true
  | a :: as, b :: bs => sameOrder a b && sameOrderItems as bs
  | _, _ => false
termination_by structural as => as

def sameOrderFields : List (String × Value) → List (String × Value) → Bool
  | [], [] => true
  | (k, a) :: as, (l, b) :: bs => k == l && sameOrder a b && sameOrderFields as bs
  | _, _ => false
termination_by structural as => as

end

mutual

def keysDistinct : Value → Bool
  | .array items => itemsKeysDistinct items
  | .document fields => decide (Document.keys fields).Nodup && fieldsKeysDistinct fields
  | _ => true
termination_by structural v => v

def itemsKeysDistinct : List Value → Bool
  | [] => true
  | v :: rest => keysDistinct v && itemsKeysDistinct rest
termination_by structural items => items

def fieldsKeysDistinct : List (String × Value) → Bool
  | [] => true
  | (_, v) :: rest => keysDistinct v && fieldsKeysDistinct rest
termination_by structural fields => fields

end

theorem itemsKeysDistinct_iff {items : List Value} :
    itemsKeysDistinct items = true ↔ ∀ v ∈ items, v.keysDistinct = true := by
  induction items with
  | nil => simp [itemsKeysDistinct]
  | cons v rest ih => simp [itemsKeysDistinct, ih]

theorem fieldsKeysDistinct_iff {fields : List (String × Value)} :
    fieldsKeysDistinct fields = true ↔ ∀ field ∈ fields, field.2.keysDistinct = true := by
  induction fields with
  | nil => simp [fieldsKeysDistinct]
  | cons field rest ih => simp [fieldsKeysDistinct, ih]

theorem sameOrderItems_iff {as bs : List Value} :
    sameOrderItems as bs = true ↔ List.Forall₂ (fun a b => a.sameOrder b = true) as bs := by
  induction as generalizing bs with
  | nil => cases bs <;> simp [sameOrderItems]
  | cons a as ih =>
    cases bs with
    | nil => simp [sameOrderItems]
    | cons b bs => simp [sameOrderItems, ih]

theorem sameOrderFields_iff {as bs : List (String × Value)} : sameOrderFields as bs = true ↔
    List.Forall₂ (fun f g => f.1 = g.1 ∧ f.2.sameOrder g.2 = true) as bs := by
  induction as generalizing bs with
  | nil => cases bs <;> simp [sameOrderFields]
  | cons a as ih =>
    cases bs with
    | nil => simp [sameOrderFields]
    | cons b bs => simp [sameOrderFields, ih]

theorem structEqItems_iff {as bs : List Value} :
    structEqItems as bs = true ↔ List.Forall₂ (fun a b => a.structEq b = true) as bs := by
  induction as generalizing bs with
  | nil => cases bs <;> simp [structEqItems]
  | cons a as ih =>
    cases bs with
    | nil => simp [structEqItems]
    | cons b bs => simp [structEqItems, ih]

theorem structEqFields_iff {as : List (String × Value)} {bs : Document} :
    structEqFields as bs = true ↔
      ∀ field ∈ as, ∃ b, bs.get? field.1 = some b ∧ field.2.structEq b = true := by
  induction as with
  | nil => simp [structEqFields]
  | cons field as ih =>
    rw [structEqFields, Bool.and_eq_true, ih, List.forall_mem_cons]
    apply and_congr_left
    intro _
    rcases bs.get? field.1 with _ | b <;> simp

theorem structEq_array {as bs : List Value} : (array as).structEq (array bs) = true ↔
    List.Forall₂ (fun a b => a.structEq b = true) as bs := by
  rw [structEq, structEqItems_iff]

theorem structEq_document {as bs : List (String × Value)} :
    (document as).structEq (document bs) = true ↔ as.length = bs.length ∧
      ∀ field ∈ as, ∃ b, Document.get? bs field.1 = some b ∧ field.2.structEq b = true := by
  rw [structEq, Bool.and_eq_true, beq_iff_eq, structEqFields_iff]

section forall₂

variable {α : Type} {r p q : α → α → Prop} {as bs : List α}

theorem forall₂_congr (h : ∀ a ∈ as, ∀ b, r a b → (p a b ↔ q a b)) (hr : List.Forall₂ r as bs) :
    List.Forall₂ p as bs ↔ List.Forall₂ q as bs := by
  induction hr with
  | nil => exact iff_of_true .nil .nil
  | @cons a b as bs hab hrest ih =>
    obtain ⟨ha, has⟩ := List.forall_mem_cons.mp h
    rw [List.forall₂_cons, List.forall₂_cons, ha b hab, ih has]

theorem forall₂_getElem? (h : List.Forall₂ r as bs) {i : Nat} {b : α} (hi : bs[i]? = some b) :
    ∃ a, as[i]? = some a ∧ r a b := by
  induction h generalizing i with
  | nil => cases hi
  | @cons a _ as bs hab _ ih =>
    cases i with
    | zero =>
      obtain rfl := Option.some.inj hi
      exact ⟨a, rfl, hab⟩
    | succ i => exact ih hi

end forall₂

theorem keys_eq_of_forall₂ {r : String × Value → String × Value → Prop}
    (hr : ∀ f g, r f g → f.1 = g.1) {as bs : List (String × Value)} (h : List.Forall₂ r as bs) :
    Document.keys as = Document.keys bs := by
  induction h with
  | nil => rfl
  | @cons f g as bs hfg _ ih =>
    change f.1 :: Document.keys as = g.1 :: Document.keys bs
    rw [hr f g hfg, ih]

theorem forall₂_of_get? {as bs : List (String × Value)} {whole : Document}
    (hkeys : Document.keys as = Document.keys bs)
    (has : ∀ field ∈ as, ∃ b, whole.get? field.1 = some b ∧ field.2.structEq b = true)
    (hbs : ∀ field ∈ bs, whole.get? field.1 = some field.2) :
    List.Forall₂ (fun f g => f.1 = g.1 ∧ f.2.structEq g.2 = true) as bs := by
  induction as generalizing bs with
  | nil =>
    obtain rfl : bs = [] := List.map_eq_nil_iff.mp hkeys.symm
    exact .nil
  | cons f as ih =>
    rcases bs with _ | ⟨g, bs⟩
    · cases hkeys
    · obtain ⟨hkey, hrest⟩ := List.cons.inj hkeys
      obtain ⟨⟨b, hb, heq⟩, has⟩ := List.forall_mem_cons.mp has
      obtain ⟨hg, hbs⟩ := List.forall_mem_cons.mp hbs
      have hvalue : b = g.2 := by
        rw [hkey, hg] at hb
        exact (Option.some.inj hb).symm
      rw [hvalue] at heq
      exact .cons ⟨hkey, heq⟩ (ih hrest has hbs)

theorem numeric_of_structEq {a b : Value} {x : Float} (hx : a.numeric? = some x)
    (h : a.structEq b = true) : ∃ y, b.numeric? = some y ∧ (x == y) = true := by
  cases a with
  | int32 m =>
    obtain rfl := Option.some.inj hx
    cases b with
    | int32 n =>
      obtain rfl : m = n := by simpa [structEq] using h
      exact ⟨_, rfl, Decimal.nearest_beq_self _⟩
    | _ => simp [structEq] at h
  | int64 m =>
    obtain rfl := Option.some.inj hx
    cases b with
    | int64 n =>
      obtain rfl : m = n := by simpa [structEq] using h
      exact ⟨_, rfl, Decimal.nearest_beq_self _⟩
    | _ => simp [structEq] at h
  | double y =>
    obtain rfl := Option.some.inj hx
    cases b with
    | double z => exact ⟨z, rfl, h⟩
    | _ => simp [structEq] at h
  | _ => simp [numeric?] at hx

theorem looseEq_of_structEq_scalar {a b : Value} (ha : a.isScalar = true)
    (h : a.structEq b = true) : a.looseEq b = true := by
  rw [looseEq_scalar ha]
  rcases hx : a.numeric? with _ | x
  · exact Or.inr ⟨rfl, (structEq_scalar ha hx b).mp h⟩
  · obtain ⟨y, hy, hxy⟩ := numeric_of_structEq hx h
    exact Or.inl ⟨x, y, rfl, hy, hxy⟩

theorem looseEq_iff_sameOrder {a b : Value} (hkeys : a.keysDistinct = true)
    (h : a.structEq b = true) : a.looseEq b = true ↔ a.sameOrder b = true := by
  induction a using shapeInduction generalizing b with
  | scalar a ha =>
    have horder : a.sameOrder b = true := by
      cases a <;> first | rfl | simp [isScalar] at ha
    exact iff_of_true (looseEq_of_structEq_scalar ha h) horder
  | array as ih =>
    obtain ⟨bs, rfl⟩ := eq_array_of_rank (rank_of_structEq h).symm
    rw [structEq_array] at h
    rw [keysDistinct, itemsKeysDistinct_iff] at hkeys
    rw [looseEq, looseEqItems_iff, sameOrder, sameOrderItems_iff]
    exact forall₂_congr (fun a ha b hab => ih a ha (hkeys a ha) hab) h
  | document as ih =>
    obtain ⟨bs, rfl⟩ := eq_document_of_rank (rank_of_structEq h).symm
    obtain ⟨-, hfields⟩ := structEq_document.mp h
    rw [keysDistinct, Bool.and_eq_true, decide_eq_true_eq, fieldsKeysDistinct_iff] at hkeys
    rw [looseEq, looseEqFields_iff, sameOrder, sameOrderFields_iff]
    by_cases hsame : Document.keys as = Document.keys bs
    · have hbs : ∀ field ∈ bs, Document.get? bs field.1 = some field.2 := by
        intro field hfield
        rw [hsame] at hkeys
        exact Document.get?_of_mem hkeys.1 hfield
      refine forall₂_congr ?_ (forall₂_of_get? hsame hfields hbs)
      intro f hf g hfg
      rw [FieldEq, ih f hf (hkeys.2 f hf) hfg.2]
    · apply iff_of_false
      · exact fun hall => hsame (keys_eq_of_forall₂ (fun f g hfg => hfg.1) hall)
      · exact fun hall => hsame (keys_eq_of_forall₂ (fun f g hfg => hfg.1) hall)

theorem looseEq_array_of_element {x v : Value} {vs : List Value} {i : Nat} (hi : vs[i]? = some v)
    (h : v.structEq x = true) : x.looseEq (array vs) = false := by
  induction x using shapeInduction generalizing v vs with
  | scalar x hx => cases x <;> first | rfl | simp [isScalar] at hx
  | document xs _ => rfl
  | array xs ih =>
    -- Both arrays would have to be nested in themselves, at the same index.
    obtain ⟨ws, rfl⟩ := eq_array_of_rank (rank_of_structEq h)
    by_contra hloose
    rw [Bool.not_eq_false, looseEq, looseEqItems_iff] at hloose
    rw [structEq_array] at h
    obtain ⟨x, hx, hxv⟩ := forall₂_getElem? hloose hi
    obtain ⟨w, hw, hwx⟩ := forall₂_getElem? h hx
    have hfalse := ih x (List.mem_of_getElem? hx) hw hwx
    rw [hxv] at hfalse
    cases hfalse

mutual

def isOrdinary : Value → Bool
  | .double x => x == x
  | .regex _ _ => false
  | .array items => itemsOrdinary items
  | .document fields => !Document.isOperators fields && fieldsOrdinary fields
  | _ => true
termination_by structural v => v

def itemsOrdinary : List Value → Bool
  | [] => true
  | v :: rest => isOrdinary v && itemsOrdinary rest
termination_by structural items => items

def fieldsOrdinary : List (String × Value) → Bool
  | [] => true
  | (_, v) :: rest => isOrdinary v && fieldsOrdinary rest
termination_by structural fields => fields

end

theorem itemsOrdinary_iff {items : List Value} :
    itemsOrdinary items = true ↔ ∀ v ∈ items, v.isOrdinary = true := by
  induction items with
  | nil => simp [itemsOrdinary]
  | cons v rest ih => simp [itemsOrdinary, ih]

theorem fieldsOrdinary_iff {fields : List (String × Value)} :
    fieldsOrdinary fields = true ↔ ∀ field ∈ fields, field.2.isOrdinary = true := by
  induction fields with
  | nil => simp [fieldsOrdinary]
  | cons field rest ih => simp [fieldsOrdinary, ih]

theorem isNanFree_of_isOrdinary {v : Value} (h : v.isOrdinary = true) : v.isNanFree = true := by
  induction v using shapeInduction with
  | scalar v hv =>
    cases v <;> first
      | exact h
      | rfl
      | simp [isScalar] at hv
  | array items ih =>
    rw [isOrdinary, itemsOrdinary_iff] at h
    rw [isNanFree, itemsNanFree_iff]
    exact fun v hv => ih v hv (h v hv)
  | document fields ih =>
    rw [isOrdinary, Bool.and_eq_true, fieldsOrdinary_iff] at h
    rw [isNanFree, fieldsNanFree_iff]
    exact fun field hfield => ih field hfield (h.2 field hfield)

theorem looseEq_self {v : Value} (h : v.isOrdinary = true) : v.looseEq v = true :=
  looseEq_of_isNanFree (isNanFree_of_isOrdinary h)

end Value

end RelDoc
