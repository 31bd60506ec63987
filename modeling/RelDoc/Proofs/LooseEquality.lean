import Mathlib.Data.List.Forall2
import RelDoc.Literal
import RelDoc.Proofs.DocumentFields
import RelDoc.Value.Order

namespace RelDoc.Decimal

open Float.Model

theorem compare_self_of_ne_nan {u : UnpackedFloat} (h : u ≠ .notANumber) :
    u.compare u = some .eq := by
  rcases u with s | _ | s | ⟨s, m, e, hm⟩
  · cases s <;> rfl
  · exact absurd rfl h
  · rfl
  · have hparts : (compare e e).then (compare m m) = .eq := by simp
    cases s with
    | positive => exact congrArg some hparts
    | negative => exact congrArg (fun o : Ordering => some o.swap) hparts

theorem beq_self {x : Float} (h : x.toModel.unpack ≠ .notANumber) : (x == x) = true := by
  change (x.toModel.unpack.compare x.toModel.unpack == some .eq) = true
  rw [compare_self_of_ne_nan h]
  rfl

theorem rounded_ne_nan (s : UnpackedFloat.Sign) (m : Nat) (e : Int) :
    (if h : m = 0 then UnpackedFloat.zero s else .finite s m e (Nat.pos_of_ne_zero h)) ≠
      .notANumber := by
  by_cases h : m = 0
  · rw [dif_pos h]; rintro ⟨⟩
  · rw [dif_neg h]; rintro ⟨⟩

theorem ofInt_ne_nan (spec : Format) (n : Int) : UnpackedFloat.ofInt spec n ≠ .notANumber := by
  unfold UnpackedFloat.ofInt UnpackedFloat.normalize
  split
  · exact rounded_ne_nan _ _ _
  · rintro ⟨⟩
  · exact rounded_ne_nan _ _ _

theorem exponent_of_nan {spec : Format} {b : BitVec spec.numBits}
    (h : UnpackedFloat.unpack spec b = .notANumber) :
    UnpackedFloat.unpackExponent b = -1#_ ∧ UnpackedFloat.unpackMantissa b ≠ 0#_ := by
  unfold UnpackedFloat.unpack at h
  dsimp only at h
  by_cases he : UnpackedFloat.unpackExponent b = -1#_
  · refine ⟨he, fun hm => ?_⟩
    rw [if_pos he, if_pos hm] at h
    cases h
  · rw [if_neg he] at h
    by_cases hz : UnpackedFloat.unpackExponent b = 0#_
    · rw [if_pos hz] at h
      by_cases hm : UnpackedFloat.unpackMantissa b = 0#_
      · rw [dif_pos hm] at h
        cases h
      · rw [dif_neg hm] at h
        cases h
    · rw [if_neg hz] at h
      cases h

theorem unpack_packComponents_ne_nan {spec : Format} {s : UnpackedFloat.Sign}
    {e : BitVec spec.exponentBits} {m : BitVec spec.mantissaBitsWithoutImplicit}
    (h : e = -1#_ → m = 0#_) :
    UnpackedFloat.unpack spec (UnpackedFloat.packComponents spec s e m) ≠ .notANumber := by
  intro hnan
  obtain ⟨he, hm⟩ := exponent_of_nan hnan
  rw [UnpackedFloat.unpackExponent_packComponents] at he
  rw [UnpackedFloat.unpackMantissa_packComponents] at hm
  exact hm (h he)

theorem unpack_pack_ne_nan {spec : Format} {u : UnpackedFloat} (h : u ≠ .notANumber) :
    UnpackedFloat.unpack spec (UnpackedFloat.pack spec u) ≠ .notANumber := by
  have hones : (-1#_ : BitVec spec.exponentBits).toNat = 2 ^ spec.exponentBits - 1 := by
    simp [BitVec.neg_one_eq_allOnes]
  have htwo : 2 ≤ 2 ^ spec.exponentBits := Nat.le_self_pow (Nat.pos_iff_ne_zero.mp spec.he) 2
  -- The greatest exponent is left to infinity, which has no significand.
  unfold UnpackedFloat.pack UnpackedFloat.packedInfinity UnpackedFloat.packedZero
  split
  · exact absurd rfl h
  · exact unpack_packComponents_ne_nan fun _ => rfl
  · exact unpack_packComponents_ne_nan fun _ => rfl
  · dsimp only
    split
    · exact unpack_packComponents_ne_nan fun _ => rfl
    · rename_i hfits
      split
      · apply unpack_packComponents_ne_nan
        intro he
        have hn := congrArg BitVec.toNat he
        rw [hones, BitVec.toNat_ofNat, Nat.mod_eq_of_lt (by omega)] at hn
        omega
      · apply unpack_packComponents_ne_nan
        intro he
        have hn := congrArg BitVec.toNat he
        rw [hones, BitVec.toNat_ofNat, Nat.zero_mod] at hn
        omega

theorem nearest_beq_self (n : Int) : (nearest n == nearest n) = true :=
  beq_self (unpack_pack_ne_nan (ofInt_ne_nan _ n))

end RelDoc.Decimal

namespace RelDoc.Value

def isScalar : Value → Bool
  | .array _ | .document _ => false
  | _ => true

@[elab_as_elim]
theorem shapeInduction {motive : Value → Prop} (scalar : ∀ v, v.isScalar = true → motive v)
    (array : ∀ items, (∀ v ∈ items, motive v) → motive (.array items))
    (document : ∀ fields, (∀ field ∈ fields, motive field.2) → motive (.document fields)) :
    ∀ v, motive v
  | .array items => array items fun v _ => shapeInduction scalar array document v
  | .document fields => document fields fun field _ =>
    shapeInduction scalar array document field.2
  | .null | .undefined | .minKey | .maxKey | .boolean _ | .int32 _ | .int64 _ | .double _
  | .decimal128 _ | .string _ | .symbol _ | .code _ | .objectId _ | .binary _ _ | .date _
  | .timestamp _ _ | .regex _ _ => scalar _ rfl
termination_by v => sizeOf v
decreasing_by
  · rename_i hitem
    exact Nat.lt_trans (List.sizeOf_lt_of_mem hitem) (by simp)
  · rename_i hfield
    have hlist := List.sizeOf_lt_of_mem hfield
    have hpair : sizeOf field = 1 + sizeOf field.1 + sizeOf field.2 := by cases field; rfl
    simp only [Value.document.sizeOf_spec]
    omega

mutual

def size : Value → Nat
  | .array items => itemsSize items + 1
  | .document fields => fieldsSize fields + 1
  | _ => 1
termination_by structural v => v

def itemsSize : List Value → Nat
  | [] => 0
  | v :: rest => size v + itemsSize rest
termination_by structural items => items

def fieldsSize : List (String × Value) → Nat
  | [] => 0
  | (_, v) :: rest => size v + fieldsSize rest
termination_by structural fields => fields

end

theorem size_of_isScalar {v : Value} (h : v.isScalar = true) : v.size = 1 := by
  cases v <;> first | rfl | exact absurd h (by simp [isScalar])

theorem size_lt_array {v : Value} {items : List Value} (h : v ∈ items) :
    v.size < (array items).size := by
  induction items with
  | nil => simp at h
  | cons w rest ih =>
    rw [size, itemsSize]
    rcases List.mem_cons.mp h with rfl | h
    · omega
    · have := ih h
      rw [size] at this
      omega

theorem size_lt_document {field : String × Value} {fields : List (String × Value)}
    (h : field ∈ fields) : field.2.size < (document fields).size := by
  induction fields with
  | nil => simp at h
  | cons f rest ih =>
    rw [size, fieldsSize]
    rcases List.mem_cons.mp h with rfl | h
    · omega
    · have := ih h
      rw [size] at this
      omega

theorem fieldsSize_append (fs gs : List (String × Value)) :
    fieldsSize (fs ++ gs) = fieldsSize fs + fieldsSize gs := by
  induction fs with
  | nil => simp [fieldsSize]
  | cons f rest ih => rw [List.cons_append, fieldsSize, ih, fieldsSize, Nat.add_assoc]

theorem isScalar_iff_rank (v : Value) : v.isScalar = true ↔ v.rank ≠ 4 ∧ v.rank ≠ 5 := by
  cases v <;> simp [isScalar, rank]

theorem eq_array_of_rank {v : Value} (h : v.rank = 5) : ∃ items, v = .array items := by
  cases v <;> first | exact ⟨_, rfl⟩ | simp [rank] at h

theorem eq_document_of_rank {v : Value} (h : v.rank = 4) : ∃ fields, v = .document fields := by
  cases v <;> first | exact ⟨_, rfl⟩ | simp [rank] at h

theorem size_eq_of_rank {a b : Value} (ha : a.isScalar = true) (h : a.rank = b.rank) :
    a.size = b.size := by
  have hb : b.isScalar = true := by rwa [isScalar_iff_rank, ← h, ← isScalar_iff_rank]
  rw [size_of_isScalar ha, size_of_isScalar hb]

theorem rank_of_numeric {v : Value} {x : Float} (h : v.numeric? = some x) : v.rank = 2 := by
  cases v <;> first | rfl | simp [numeric?] at h

theorem rank_of_structEq {a b : Value} (h : a.structEq b = true) : a.rank = b.rank := by
  unfold structEq at h
  split at h <;> first | rfl | exact absurd h (by simp)

theorem rank_of_looseEq {a b : Value} (h : a.looseEq b = true) : a.rank = b.rank := by
  unfold looseEq at h
  split at h
  · rfl
  · rfl
  · split at h
    · rename_i hx hy
      rw [rank_of_numeric hx, rank_of_numeric hy]
    · exact rank_of_structEq h

theorem rank_of_order {a b : Value} (h : a.order b = .eq) : a.rank = b.rank := by
  unfold order at h
  split at h
  · rfl
  · rfl
  · exact Nat.compare_eq_eq.mp (Ordering.then_eq_eq.mp h).1

def Alike (a b : Value) : Prop := a.looseEq b = true ∨ a.order b = .eq

theorem rank_of_alike {a b : Value} (h : Alike a b) : a.rank = b.rank :=
  h.elim rank_of_looseEq rank_of_order

theorem itemsSize_of_alike {as bs : List Value}
    (ih : ∀ a ∈ as, ∀ b, Alike a b → a.size = b.size)
    (h : looseEqItems as bs = true ∨ orderItems as bs = .eq) : itemsSize as = itemsSize bs := by
  induction as generalizing bs with
  | nil =>
    cases bs with
    | nil => rfl
    | cons b bs => simp [looseEqItems, orderItems] at h
  | cons a as iha =>
    cases bs with
    | nil => simp [looseEqItems, orderItems] at h
    | cons b bs =>
      simp only [looseEqItems, orderItems, Bool.and_eq_true, Ordering.then_eq_eq] at h
      rw [itemsSize, itemsSize, ih a (by simp) b (h.imp And.left And.left),
        iha (fun a ha => ih a (List.mem_cons_of_mem _ ha)) (h.imp And.right And.right)]

theorem fieldsSize_of_alike {as bs : List (String × Value)}
    (ih : ∀ a ∈ as, ∀ b, Alike a.2 b → a.2.size = b.size)
    (h : looseEqFields as bs = true ∨ orderFields as bs = .eq) : fieldsSize as = fieldsSize bs := by
  induction as generalizing bs with
  | nil =>
    cases bs with
    | nil => rfl
    | cons b bs => simp [looseEqFields, orderFields] at h
  | cons a as iha =>
    cases bs with
    | nil => simp [looseEqFields, orderFields] at h
    | cons b bs =>
      simp only [looseEqFields, orderFields, Bool.and_eq_true, Ordering.then_eq_eq] at h
      rw [fieldsSize, fieldsSize, ih a (by simp) b.2 (h.imp (·.1.2) (·.1.2)),
        iha (fun a ha => ih a (List.mem_cons_of_mem _ ha)) (h.imp And.right And.right)]

theorem size_of_alike {a b : Value} (h : Alike a b) : a.size = b.size := by
  induction a using shapeInduction generalizing b with
  | scalar a ha => exact size_eq_of_rank ha (rank_of_alike h)
  | array as ih =>
    obtain ⟨bs, rfl⟩ := eq_array_of_rank (rank_of_alike h).symm
    rw [Alike, looseEq, order] at h
    rw [size, size, itemsSize_of_alike (fun a ha b hab => ih a ha hab) h]
  | document as ih =>
    obtain ⟨bs, rfl⟩ := eq_document_of_rank (rank_of_alike h).symm
    rw [Alike, looseEq, order] at h
    rw [size, size, fieldsSize_of_alike (fun a ha b hab => ih a ha hab) h]

theorem orderFields_append {fs gs xs : List (String × Value)} (h : fieldsSize xs < fieldsSize fs) :
    orderFields (fs ++ gs) xs = orderFields fs xs := by
  induction fs generalizing xs with
  | nil => simp [fieldsSize] at h
  | cons f fs ih =>
    cases xs with
    | nil => rfl
    | cons x xs =>
      simp only [List.cons_append, orderFields]
      by_cases hhead : (compare f.1 x.1).then (order f.2 x.2) = .eq
      · have hsize := size_of_alike (Or.inr (Ordering.then_eq_eq.mp hhead).2)
        simp only [fieldsSize] at h
        rw [ih (by omega)]
      · generalize (compare f.1 x.1).then (order f.2 x.2) = o at hhead
        cases o <;> simp_all

theorem looseEqItems_iff {as bs : List Value} :
    looseEqItems as bs = true ↔ List.Forall₂ (fun a b => a.looseEq b = true) as bs := by
  induction as generalizing bs with
  | nil => cases bs <;> simp [looseEqItems]
  | cons a as ih =>
    cases bs with
    | nil => simp [looseEqItems]
    | cons b bs => simp [looseEqItems, ih]

def FieldEq (f g : String × Value) : Prop := f.1 = g.1 ∧ f.2.looseEq g.2 = true

theorem looseEqFields_iff {as bs : List (String × Value)} :
    looseEqFields as bs = true ↔ List.Forall₂ FieldEq as bs := by
  induction as generalizing bs with
  | nil => cases bs <;> simp [looseEqFields]
  | cons a as ih =>
    cases bs with
    | nil => simp [looseEqFields]
    | cons b bs => simp [looseEqFields, ih, FieldEq]

theorem looseEqItems_self {items : List Value} (h : ∀ v ∈ items, v.looseEq v = true) :
    looseEqItems items items = true :=
  looseEqItems_iff.mpr (List.forall₂_same.mpr h)

theorem looseEqFields_self {fields : List (String × Value)}
    (h : ∀ field ∈ fields, field.2.looseEq field.2 = true) : looseEqFields fields fields = true :=
  looseEqFields_iff.mpr (List.forall₂_same.mpr fun field hfield => ⟨rfl, h field hfield⟩)

mutual

def isNanFree : Value → Bool
  | .double x => x == x
  | .array items => itemsNanFree items
  | .document fields => fieldsNanFree fields
  | _ => true
termination_by structural v => v

def itemsNanFree : List Value → Bool
  | [] => true
  | v :: rest => isNanFree v && itemsNanFree rest
termination_by structural items => items

def fieldsNanFree : List (String × Value) → Bool
  | [] => true
  | (_, v) :: rest => isNanFree v && fieldsNanFree rest
termination_by structural fields => fields

end

theorem itemsNanFree_iff {items : List Value} :
    itemsNanFree items = true ↔ ∀ v ∈ items, v.isNanFree = true := by
  induction items with
  | nil => simp [itemsNanFree]
  | cons v rest ih => simp [itemsNanFree, ih]

theorem fieldsNanFree_iff {fields : List (String × Value)} :
    fieldsNanFree fields = true ↔ ∀ field ∈ fields, field.2.isNanFree = true := by
  induction fields with
  | nil => simp [fieldsNanFree]
  | cons field rest ih => simp [fieldsNanFree, ih]

theorem looseEq_of_isNanFree {v : Value} (h : v.isNanFree = true) : v.looseEq v = true := by
  induction v using shapeInduction with
  | scalar v hv =>
    cases v <;> first
      | exact h
      | simp [looseEq, numeric?, structEq, Decimal.nearest_beq_self]; done
      | simp [isScalar] at hv
  | array items ih =>
    rw [isNanFree, itemsNanFree_iff] at h
    apply looseEqItems_self
    intro v hv
    exact ih v hv (h v hv)
  | document fields ih =>
    rw [isNanFree, fieldsNanFree_iff] at h
    apply looseEqFields_self
    intro field hfield
    exact ih field hfield (h field hfield)

theorem looseEq_ofInt64 (n : Int64) : (ofInt64 n).looseEq (ofInt64 n) = true := by
  unfold ofInt64
  split <;> simp [looseEq, numeric?, Decimal.nearest_beq_self]

end RelDoc.Value

namespace RelDoc.Literal

mutual

def isData : Literal → Bool
  | .native _ => false
  | .float x => x == x
  | .array items => itemsAreData items
  | .map pairs => fieldsAreData pairs
  | _ => true
termination_by structural l => l

def itemsAreData : List Literal → Bool
  | [] => true
  | l :: rest => isData l && itemsAreData rest
termination_by structural items => items

def fieldsAreData : List (String × Literal) → Bool
  | [] => true
  | (_, l) :: rest => isData l && fieldsAreData rest
termination_by structural pairs => pairs

end

mutual

theorem looseEq_toValue : ∀ {l : Literal}, l.isData = true → l.toValue.looseEq l.toValue = true
  | .null, _ | .boolean _, _ | .string _, _ | .bytes _, _ | .instant _, _ => by
    simp [toValue, Value.looseEq, Value.numeric?, Value.structEq]
  | .integer n, _ => Value.looseEq_ofInt64 n
  | .float _, h => h
  | .array _, h => Value.looseEqItems_self (looseEq_itemValues h)
  | .map _, h => Value.looseEqFields_self <|
    Document.forall_ofFields (p := fun field => field.2.looseEq field.2 = true) (looseEq_fieldValues h)

theorem looseEq_itemValues : ∀ {items : List Literal}, itemsAreData items = true →
    ∀ v ∈ itemValues items, v.looseEq v = true
  | [], _ => by simp [itemValues]
  | _ :: _, h =>
    List.forall_mem_cons.mpr ⟨looseEq_toValue (Bool.and_eq_true_iff.mp h).1,
      looseEq_itemValues (Bool.and_eq_true_iff.mp h).2⟩

theorem looseEq_fieldValues : ∀ {pairs : List (String × Literal)}, fieldsAreData pairs = true →
    ∀ field ∈ fieldValues pairs, field.2.looseEq field.2 = true
  | [], _ => by simp [fieldValues]
  | _ :: _, h =>
    List.forall_mem_cons.mpr ⟨looseEq_toValue (Bool.and_eq_true_iff.mp h).1,
      looseEq_fieldValues (Bool.and_eq_true_iff.mp h).2⟩

end

end RelDoc.Literal
