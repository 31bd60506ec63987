import RelDoc.Filter
import RelDoc.Proofs.EqualityLaws

namespace RelDoc

namespace Decimal

open Float.Model

def orderKey : UnpackedFloat → List Int
  | .infinity .negative => [-2]
  | .finite .negative m e _ => [-1, -e, -m]
  | .zero _ | .notANumber => [0]
  | .finite .positive m e _ => [1, e, m]
  | .infinity .positive => [2]

theorem compare_cast (m n : Nat) : compare (m : Int) n = compare m n := by
  rw [Int.compare_eq_ite_lt, Nat.compare_eq_ite_lt]
  simp only [Int.ofNat_lt]

theorem compare_neg (a b : Int) : compare (-a) (-b) = (compare a b).swap := by
  rw [← Std.OrientedOrd.eq_swap, Int.compare_eq_ite_lt, Int.compare_eq_ite_lt]
  simp only [Int.neg_lt_neg_iff]

theorem compare_tagged (tag e f m n : Int) :
    compare [tag, e, m] [tag, f, n] = (compare e f).then (compare m n) := by
  rw [List.compare_cons_cons, List.compare_cons_cons, List.compare_cons_cons, Std.compare_self,
    Std.compare_self, Ordering.eq_then, Ordering.then_eq]

theorem compare_eq_orderKey {u v : UnpackedFloat} (hu : u ≠ .notANumber) (hv : v ≠ .notANumber) :
    u.compare v = some (compare (orderKey u) (orderKey v)) := by
  rcases u with s | _ | s | ⟨s, m, e, hm⟩ <;> rcases v with t | _ | t | ⟨t, n, f, hn⟩
  case finite.finite =>
    cases s <;> cases t
    case positive.positive =>
      change _ = some (compare [1, e, (m : Int)] [1, f, (n : Int)])
      rw [compare_tagged, compare_cast]
      rfl
    case negative.negative =>
      change _ = some (compare [-1, -e, -(m : Int)] [-1, -f, -(n : Int)])
      rw [compare_tagged, compare_neg, compare_neg, compare_cast, ← Ordering.swap_then]
      rfl
    all_goals rfl
  all_goals first
    | exact absurd rfl hu
    | exact absurd rfl hv
    | rfl
    | (cases s <;> rfl)
    | (cases t <;> rfl)
    | (cases s <;> cases t <;> rfl)

theorem ne_nan_of_beq_self {x : Float} (h : (x == x) = true) : x.toModel.unpack ≠ .notANumber := by
  intro hnan
  obtain ⟨w, hw, -⟩ := (beq_iff x x).mp h
  rw [hnan] at hw
  cases hw

theorem beq_eq_order? (x y : Float) : (x == y) = (order? x y == some .eq) := rfl

theorem order?_eq_orderKey {x y : Float} (hx : (x == x) = true) (hy : (y == y) = true) :
    order? x y = some (compare (orderKey x.toModel.unpack) (orderKey y.toModel.unpack)) :=
  compare_eq_orderKey (ne_nan_of_beq_self hx) (ne_nan_of_beq_self hy)

end Decimal

namespace Value

mutual

/-- Does the order tell a value apart from all values that are not equal to it? -/
def isSortable : Value → Bool
  | .null | .boolean _ | .int32 _ | .int64 _ | .string _ | .objectId _ | .date _ => true
  | .double x => x == x
  | .array items => itemsSortable items
  | .document fields => fieldsSortable fields
  | _ => false
termination_by structural v => v

def itemsSortable : List Value → Bool
  | [] => true
  | v :: rest => isSortable v && itemsSortable rest
termination_by structural items => items

def fieldsSortable : List (String × Value) → Bool
  | [] => true
  | (_, v) :: rest => isSortable v && fieldsSortable rest
termination_by structural fields => fields

end

theorem itemsSortable_iff {items : List Value} :
    itemsSortable items = true ↔ ∀ v ∈ items, v.isSortable = true := by
  induction items with
  | nil => simp [itemsSortable]
  | cons v rest ih => simp [itemsSortable, ih]

theorem fieldsSortable_iff {fields : List (String × Value)} :
    fieldsSortable fields = true ↔ ∀ field ∈ fields, field.2.isSortable = true := by
  induction fields with
  | nil => simp [fieldsSortable]
  | cons field rest ih => simp [fieldsSortable, ih]

theorem isNanFree_of_isSortable {v : Value} (h : v.isSortable = true) : v.isNanFree = true := by
  induction v using shapeInduction with
  | scalar v hv =>
    cases v <;> first
      | exact h
      | rfl
      | simp [isScalar] at hv
  | array items ih =>
    rw [isSortable, itemsSortable_iff] at h
    rw [isNanFree, itemsNanFree_iff]
    exact fun v hv => ih v hv (h v hv)
  | document fields ih =>
    rw [isSortable, fieldsSortable_iff] at h
    rw [isNanFree, fieldsNanFree_iff]
    exact fun field hfield => ih field hfield (h field hfield)

def numberKey : Value → List Int
  | .objectId id => [id.bits.toNat]
  | .boolean b => [b.toNat]
  | .date n => [n.toInt]
  | v => (v.numeric?.map fun x => Decimal.orderKey x.toModel.unpack).getD []

def textKey : Value → String
  | .string s => s
  | _ => ""

theorem beq_self_of_numeric {v : Value} {x : Float} (h : v.isSortable = true)
    (hx : v.numeric? = some x) : (x == x) = true := by
  cases v with
  | int32 n =>
    obtain rfl := Option.some.inj hx
    exact Decimal.nearest_beq_self _
  | int64 n =>
    obtain rfl := Option.some.inj hx
    exact Decimal.nearest_beq_self _
  | double y =>
    obtain rfl := Option.some.inj hx
    exact h
  | _ => cases hx

theorem exists_numeric {v : Value} (h : v.isSortable = true) (hrank : v.rank = 2) :
    ∃ x, v.numeric? = some x := by
  cases v <;> first
    | exact ⟨_, rfl⟩
    | exact absurd h Bool.false_ne_true
    | simp [rank] at hrank

theorem order_numeric {a b : Value} {x y : Float} (hx : a.numeric? = some x)
    (hy : b.numeric? = some y) : a.order b = (Decimal.order? x y).getD .eq := by
  cases a <;> cases hx <;> cases b <;> cases hy <;> rfl

theorem looseEq_numeric {a b : Value} {x y : Float} (hx : a.numeric? = some x)
    (hy : b.numeric? = some y) : a.looseEq b = (x == y) := by
  cases a <;> cases hx <;> cases b <;> cases hy <;> rfl

theorem scalar_keys {a b : Value} (ha : a.isScalar = true) (hsa : a.isSortable = true)
    (hsb : b.isSortable = true) (hrank : a.rank = b.rank) :
    a.order b = (compare (numberKey a) (numberKey b)).then (compare (textKey a) (textKey b)) ∧
      (a.looseEq b = true ↔ numberKey a = numberKey b ∧ textKey a = textKey b) := by
  by_cases hnumber : a.rank = 2
  · obtain ⟨x, hx⟩ := exists_numeric hsa hnumber
    obtain ⟨y, hy⟩ := exists_numeric hsb (hrank ▸ hnumber)
    have hka : numberKey a = Decimal.orderKey x.toModel.unpack := by
      cases a <;> cases hx <;> rfl
    have hkb : numberKey b = Decimal.orderKey y.toModel.unpack := by
      cases b <;> cases hy <;> rfl
    have hta : textKey a = "" := by
      cases a <;> cases hx <;> rfl
    have htb : textKey b = "" := by
      cases b <;> cases hy <;> rfl
    have horder := Decimal.order?_eq_orderKey (beq_self_of_numeric hsa hx)
      (beq_self_of_numeric hsb hy)
    rw [order_numeric hx hy, looseEq_numeric hx hy, hka, hkb, hta, htb, Decimal.beq_eq_order?,
      horder]
    constructor
    · rw [Std.compare_self, Ordering.then_eq]
      rfl
    · rw [beq_iff_eq, Option.some_inj, Std.compare_eq_iff_eq, and_iff_left rfl]
  · -- Two values of one rank other than that of numbers are of one type.
    cases a <;> first
      | exact absurd rfl hnumber
      | exact absurd hsa Bool.false_ne_true
      | exact absurd ha Bool.false_ne_true
      | (cases b <;> first
        | exact absurd hsb Bool.false_ne_true
        | (simp [rank] at hrank; done)
        | skip)
    case null.null => exact ⟨rfl, iff_of_true rfl ⟨rfl, rfl⟩⟩
    case string.string s t =>
      constructor
      · simp [order, rank, scalarOrder, numberKey, numeric?, textKey]
      · simp [looseEq, structEq, numberKey, numeric?, textKey]
    case objectId.objectId id other =>
      have hbits : id = other ↔ (id.bits.toNat : Int) = other.bits.toNat := by
        cases id
        cases other
        rw [ObjectId.mk.injEq, Int.natCast_inj, BitVec.toNat_inj]
      constructor
      · simp [order, rank, scalarOrder, numberKey, textKey, Decimal.compare_cast]
      · simp only [looseEq, structEq, numberKey, numeric?, textKey, beq_iff_eq, List.cons.injEq,
          and_true, hbits]
    case boolean.boolean x y =>
      constructor
      · cases x <;> cases y <;> simp [order, rank, scalarOrder, numberKey, textKey] <;> rfl
      · cases x <;> cases y <;> simp [looseEq, structEq, numberKey, numeric?, textKey]
    case date.date m n =>
      constructor
      · simp [order, rank, scalarOrder, numberKey, textKey]
      · simp [looseEq, structEq, numberKey, numeric?, textKey, Int64.toInt_inj]

def Chained (ab bc ac : Ordering) : Prop := ab ≠ .gt → bc ≠ .gt → ac = ab.then bc

theorem chained_compare {α : Type} [Ord α] [Std.TransOrd α] (a b c : α) :
    Chained (compare a b) (compare b c) (compare a c) := by
  intro hab hbc
  rcases hab' : compare a b with _ | _ | _
  · rcases hbc' : compare b c with _ | _ | _
    · exact Std.TransCmp.lt_trans hab' hbc'
    · exact Std.TransCmp.lt_of_lt_of_eq hab' hbc'
    · exact absurd hbc' hbc
  · exact Std.TransCmp.congr_left hab'
  · exact absurd hab' hab

theorem Chained.reverse {ab bc ac : Ordering} (h : Chained bc ab ac) : Chained ab bc ac := by
  intro hab hbc
  rw [h hbc hab]
  cases ab <;> cases bc <;> first | rfl | exact absurd rfl hab | exact absurd rfl hbc

theorem Chained.andThen {ab bc ac ab' bc' ac' : Ordering} (h : Chained ab bc ac)
    (h' : ab = .eq → bc = .eq → Chained ab' bc' ac') :
    Chained (ab.then ab') (bc.then bc') (ac.then ac') := by
  intro hab hbc
  cases ab with
  | gt => exact absurd rfl hab
  | lt =>
    cases bc with
    | gt => exact absurd rfl hbc
    | _ => rw [h (by decide) (by decide)]; rfl
  | eq =>
    cases bc with
    | gt => exact absurd rfl hbc
    | lt =>
      rw [h (by decide) (by decide)]
      change ab' ≠ .gt at hab
      cases ab' <;> first | rfl | exact absurd rfl hab
    | eq =>
      rw [h (by decide) (by decide)]
      exact h' rfl rfl hab hbc

section lists

variable {α : Type} {cmp : α → α → Ordering} {as bs cs : List α}

theorem compareLex_swap (h : ∀ a ∈ as, ∀ b ∈ bs, cmp b a = (cmp a b).swap) :
    List.compareLex cmp bs as = (List.compareLex cmp as bs).swap := by
  induction as generalizing bs with
  | nil => cases bs <;> rfl
  | cons a as ih =>
    cases bs with
    | nil => rfl
    | cons b bs =>
      rw [List.compareLex_cons_cons, List.compareLex_cons_cons, Ordering.swap_then,
        h a List.mem_cons_self b List.mem_cons_self,
        ih fun a ha b hb => h a (List.mem_cons_of_mem _ ha) b (List.mem_cons_of_mem _ hb)]

theorem compareLex_chained
    (h : ∀ a ∈ as, ∀ b ∈ bs, ∀ c ∈ cs, Chained (cmp a b) (cmp b c) (cmp a c)) :
    Chained (List.compareLex cmp as bs) (List.compareLex cmp bs cs) (List.compareLex cmp as cs) := by
  induction as generalizing bs cs with
  | nil =>
    cases bs <;> cases cs <;> simp [Chained, List.compareLex_nil_nil, List.compareLex_nil_cons,
      List.compareLex_cons_nil]
  | cons a as ih =>
    rcases bs with _ | ⟨b, bs⟩
    · simp [Chained, List.compareLex_cons_nil]
    · rcases cs with _ | ⟨c, cs⟩
      · simp [Chained, List.compareLex_cons_nil]
      · rw [List.compareLex_cons_cons, List.compareLex_cons_cons, List.compareLex_cons_cons]
        apply (h a List.mem_cons_self b List.mem_cons_self c List.mem_cons_self).andThen
        intro _ _
        exact ih fun a ha b hb c hc => h a (List.mem_cons_of_mem _ ha) b (List.mem_cons_of_mem _ hb)
          c (List.mem_cons_of_mem _ hc)

theorem compareLex_eq_iff :
    List.compareLex cmp as bs = .eq ↔ List.Forall₂ (fun a b => cmp a b = .eq) as bs := by
  induction as generalizing bs with
  | nil => cases bs <;> simp [List.compareLex_nil_nil, List.compareLex_nil_cons]
  | cons a as ih =>
    cases bs with
    | nil => simp [List.compareLex_cons_nil]
    | cons b bs => rw [List.compareLex_cons_cons, Ordering.then_eq_eq, ih, List.forall₂_cons]

theorem forall₂_congr_of_mem {p q : α → α → Prop} (h : ∀ a ∈ as, ∀ b ∈ bs, p a b ↔ q a b) :
    List.Forall₂ p as bs ↔ List.Forall₂ q as bs := by
  induction as generalizing bs with
  | nil => cases bs <;> simp
  | cons a as ih =>
    cases bs with
    | nil => simp
    | cons b bs =>
      rw [List.forall₂_cons, List.forall₂_cons, h a List.mem_cons_self b List.mem_cons_self,
        ih fun a ha b hb => h a (List.mem_cons_of_mem _ ha) b (List.mem_cons_of_mem _ hb)]

end lists

def fieldOrder (f g : String × Value) : Ordering := (compare f.1 g.1).then (f.2.order g.2)

theorem order_array (as bs : List Value) :
    (array as).order (array bs) = List.compareLex order as bs := by
  rw [order]
  induction as generalizing bs with
  | nil => cases bs <;> rfl
  | cons a as ih =>
    cases bs with
    | nil => rfl
    | cons b bs => rw [orderItems, List.compareLex_cons_cons, ih]

theorem order_document (as bs : List (String × Value)) :
    (document as).order (document bs) = List.compareLex fieldOrder as bs := by
  rw [order]
  induction as generalizing bs with
  | nil => cases bs <;> rfl
  | cons f as ih =>
    cases bs with
    | nil => rfl
    | cons g bs => rw [orderFields, List.compareLex_cons_cons, ih, fieldOrder]

theorem order_of_rank_ne {a b : Value} (h : a.rank ≠ b.rank) : a.order b = compare a.rank b.rank := by
  have hne : compare a.rank b.rank ≠ .eq := fun heq => h (Nat.compare_eq_eq.mp heq)
  unfold order
  split
  · exact absurd rfl h
  · exact absurd rfl h
  · cases hcompare : compare a.rank b.rank <;> first | rfl | exact absurd hcompare hne

theorem order_eq_then (a b : Value) : a.order b = (compare a.rank b.rank).then (a.order b) := by
  by_cases h : a.rank = b.rank
  · rw [h, Std.compare_self, Ordering.eq_then]
  · rw [order_of_rank_ne h]
    cases compare a.rank b.rank <;> rfl

theorem isScalar_of_rank {a b : Value} (ha : a.isScalar = true) (h : a.rank = b.rank) :
    b.isScalar = true := by
  rwa [isScalar_iff_rank, ← h, ← isScalar_iff_rank]

variable {a b c : Value}

theorem order_swap_of_rank (h : a.rank = b.rank → b.order a = (a.order b).swap) :
    b.order a = (a.order b).swap := by
  by_cases hrank : a.rank = b.rank
  · exact h hrank
  · rw [order_of_rank_ne hrank, order_of_rank_ne (Ne.symm hrank), ← Std.OrientedOrd.eq_swap]

theorem chained_of_rank
    (h : a.rank = b.rank → b.rank = c.rank → Chained (a.order b) (b.order c) (a.order c)) :
    Chained (a.order b) (b.order c) (a.order c) := by
  rw [order_eq_then a b, order_eq_then b c, order_eq_then a c]
  apply (chained_compare a.rank b.rank c.rank).andThen
  intro hab hbc
  exact h (Nat.compare_eq_eq.mp hab) (Nat.compare_eq_eq.mp hbc)

theorem order_swap (ha : a.isSortable = true) (hb : b.isSortable = true) :
    b.order a = (a.order b).swap := by
  induction a using shapeInduction generalizing b with
  | scalar a hscalar =>
    apply order_swap_of_rank
    intro hrank
    rw [(scalar_keys hscalar ha hb hrank).1,
      (scalar_keys (isScalar_of_rank hscalar hrank) hb ha hrank.symm).1, Ordering.swap_then,
      ← Std.OrientedOrd.eq_swap, ← Std.OrientedOrd.eq_swap]
  | array as ih =>
    apply order_swap_of_rank
    intro hrank
    obtain ⟨bs, rfl⟩ := eq_array_of_rank hrank.symm
    rw [isSortable, itemsSortable_iff] at ha hb
    rw [order_array, order_array]
    exact compareLex_swap fun a hmem b hmem' => ih a hmem (ha a hmem) (hb b hmem')
  | document as ih =>
    apply order_swap_of_rank
    intro hrank
    obtain ⟨bs, rfl⟩ := eq_document_of_rank hrank.symm
    rw [isSortable, fieldsSortable_iff] at ha hb
    rw [order_document, order_document]
    apply compareLex_swap
    intro f hf g hg
    rw [fieldOrder, fieldOrder, Ordering.swap_then, ← Std.OrientedOrd.eq_swap,
      ih f hf (ha f hf) (hb g hg)]

theorem order_chained (ha : a.isSortable = true) (hb : b.isSortable = true)
    (hc : c.isSortable = true) : Chained (a.order b) (b.order c) (a.order c) := by
  induction a using shapeInduction generalizing b c with
  | scalar a hscalar =>
    apply chained_of_rank
    intro hab hbc
    have hscalar' := isScalar_of_rank hscalar hab
    rw [(scalar_keys hscalar ha hb hab).1, (scalar_keys hscalar' hb hc hbc).1,
      (scalar_keys hscalar ha hc (hab.trans hbc)).1]
    exact (chained_compare _ _ _).andThen fun _ _ => chained_compare _ _ _
  | array as ih =>
    apply chained_of_rank
    intro hab hbc
    obtain ⟨bs, rfl⟩ := eq_array_of_rank hab.symm
    obtain ⟨cs, rfl⟩ := eq_array_of_rank hbc.symm
    rw [isSortable, itemsSortable_iff] at ha hb hc
    rw [order_array, order_array, order_array]
    exact compareLex_chained fun a hma b hmb c hmc =>
      ih a hma (ha a hma) (hb b hmb) (hc c hmc)
  | document as ih =>
    apply chained_of_rank
    intro hab hbc
    obtain ⟨bs, rfl⟩ := eq_document_of_rank hab.symm
    obtain ⟨cs, rfl⟩ := eq_document_of_rank hbc.symm
    rw [isSortable, fieldsSortable_iff] at ha hb hc
    rw [order_document, order_document, order_document]
    exact compareLex_chained fun f hf g hg k hk => (chained_compare f.1 g.1 k.1).andThen
      fun _ _ => ih f hf (ha f hf) (hb g hg) (hc k hk)

theorem order_trans (ha : a.isSortable = true) (hb : b.isSortable = true)
    (hc : c.isSortable = true) (hab : a.order b ≠ .gt) (hbc : b.order c ≠ .gt) :
    a.order c ≠ .gt := by
  rw [order_chained ha hb hc hab hbc]
  cases hab' : a.order b <;> simp_all

theorem order_eq_iff_of_rank (h : a.rank = b.rank → (a.order b = .eq ↔ a.looseEq b = true)) :
    a.order b = .eq ↔ a.looseEq b = true := by
  by_cases hrank : a.rank = b.rank
  · exact h hrank
  · exact iff_of_false (fun h => hrank (rank_of_order h)) fun h => hrank (rank_of_looseEq h)

theorem order_eq_iff (ha : a.isSortable = true) (hb : b.isSortable = true) :
    a.order b = .eq ↔ a.looseEq b = true := by
  induction a using shapeInduction generalizing b with
  | scalar a hscalar =>
    apply order_eq_iff_of_rank
    intro hrank
    obtain ⟨horder, hequal⟩ := scalar_keys hscalar ha hb hrank
    rw [horder, hequal, Ordering.then_eq_eq, Std.compare_eq_iff_eq, Std.compare_eq_iff_eq]
  | array as ih =>
    apply order_eq_iff_of_rank
    intro hrank
    obtain ⟨bs, rfl⟩ := eq_array_of_rank hrank.symm
    rw [isSortable, itemsSortable_iff] at ha hb
    rw [order_array, compareLex_eq_iff, looseEq, looseEqItems_iff]
    exact forall₂_congr_of_mem fun a hma b hmb => ih a hma (ha a hma) (hb b hmb)
  | document as ih =>
    apply order_eq_iff_of_rank
    intro hrank
    obtain ⟨bs, rfl⟩ := eq_document_of_rank hrank.symm
    rw [isSortable, fieldsSortable_iff] at ha hb
    rw [order_document, compareLex_eq_iff, looseEq, looseEqFields_iff]
    apply forall₂_congr_of_mem
    intro f hf g hg
    rw [fieldOrder, Ordering.then_eq_eq, Std.compare_eq_iff_eq, ih f hf (ha f hf) (hb g hg), FieldEq]

end Value

namespace Filter

open Value

variable {a b : Value}

def tested (candidates : List Value) : List Value := candidates.flatMap fun v => v :: elements v

theorem anyValue_eq_any (test : Value → Bool) (candidates : List Value) :
    anyValue test candidates = (tested candidates).any test := by
  rw [anyValue, tested, List.any_flatMap]
  congr 1
  funext v
  cases v <;> simp [elements]

theorem isSortable_of_tested {candidates : List Value}
    (h : ∀ v ∈ candidates, v.isSortable = true) : ∀ v ∈ tested candidates, v.isSortable = true := by
  intro v hv
  obtain ⟨w, hw, hv⟩ := List.mem_flatMap.mp hv
  rcases List.mem_cons.mp hv with rfl | hv
  · exact h v hw
  · have hsortable := h w hw
    cases w with
    | array items => exact itemsSortable_iff.mp hsortable v hv
    | _ => cases hv

theorem rangeHolds_or {strict accept : Ordering → Bool}
    (hties : ∀ o, accept o = (strict o || o == .eq)) (ha : a.isSortable = true)
    (hb : b.isSortable = true) :
    rangeHolds accept b a = (rangeHolds strict b a || a.looseEq b) := by
  have hequal : (a.order b == .eq) = a.looseEq b := by
    rw [Bool.eq_iff_iff, beq_iff_eq, order_eq_iff ha hb]
  rw [rangeHolds, rangeHolds, hties, hequal]
  rcases hloose : a.looseEq b with _ | _
  · simp
  · simp [rank_of_looseEq hloose]

theorem anyValue_rangeHolds_or {strict accept : Ordering → Bool} {candidates : List Value}
    (hties : ∀ o, accept o = (strict o || o == .eq))
    (hcandidates : ∀ v ∈ candidates, v.isSortable = true) (hb : b.isSortable = true) :
    anyValue (rangeHolds accept b) candidates =
      (anyValue (rangeHolds strict b) candidates || anyValue (·.looseEq b) candidates) := by
  have hsortable := isSortable_of_tested hcandidates
  rw [anyValue_eq_any, anyValue_eq_any, anyValue_eq_any, Bool.eq_iff_iff, Bool.or_eq_true,
    List.any_eq_true, List.any_eq_true, List.any_eq_true, ← exists_or]
  apply exists_congr
  intro v
  rw [← and_or_left]
  apply and_congr_right
  intro hv
  rw [rangeHolds_or hties (hsortable v hv) hb, Bool.or_eq_true]

theorem equalsAny_sortable {candidates : List Value} (hne : candidates ≠ [])
    (hb : b.isSortable = true) :
    equalsAny candidates b = .ok (anyValue (·.looseEq b) candidates) := by
  cases candidates with
  | nil => exact absurd rfl hne
  | cons v rest => cases b <;> first | rfl | exact absurd hb Bool.false_ne_true

end Filter

namespace Value

open RelDoc.Filter

theorem order_totalPreorder {a b c : Value} (ha : a.isSortable = true) (hb : b.isSortable = true)
    (hc : c.isSortable = true) :
    b.order a = (a.order b).swap ∧
      (a.order b ≠ .gt → b.order c ≠ .gt → a.order c ≠ .gt) ∧
      (a.order b = .eq ↔ a.looseEq b = true) ∧
      (a.looseEq a = true ∧ (a.looseEq b = true → b.looseEq a = true) ∧
        (a.looseEq b = true → b.looseEq c = true → a.looseEq c = true)) ∧
      (rangeHolds (· != .lt) b a = true ↔ rangeHolds (· == .gt) b a = true ∨ a.looseEq b = true) ∧
      (rangeHolds (· != .gt) b a = true ↔ rangeHolds (· == .lt) b a = true ∨ a.looseEq b = true) ∧
      ∀ (whole : Document) (candidates : List Value), candidates ≠ [] →
        (∀ v ∈ candidates, v.isSortable = true) → ∃ greater less equal : Bool,
          plainOperatorHolds whole candidates "$gt" b = .ok greater ∧
          plainOperatorHolds whole candidates "$lt" b = .ok less ∧
          plainOperatorHolds whole candidates "$eq" b = .ok equal ∧
          plainOperatorHolds whole candidates "$gte" b = .ok (greater || equal) ∧
          plainOperatorHolds whole candidates "$lte" b = .ok (less || equal) := by
  have hgreater : ∀ o : Ordering, (o != .lt) = (o == .gt || o == .eq) := by decide
  have hless : ∀ o : Ordering, (o != .gt) = (o == .lt || o == .eq) := by decide
  refine ⟨order_swap ha hb, order_trans ha hb hc, order_eq_iff ha hb, ⟨?_, looseEq_symm,
    looseEq_trans⟩, ?_, ?_, ?_⟩
  · exact looseEq_of_isNanFree (isNanFree_of_isSortable ha)
  · rw [rangeHolds_or hgreater ha hb, Bool.or_eq_true]
  · rw [rangeHolds_or hless ha hb, Bool.or_eq_true]
  · intro whole candidates hne hcandidates
    refine ⟨_, _, _, rfl, rfl, equalsAny_sortable hne hb, ?_, ?_⟩
    · exact congrArg Except.ok (anyValue_rangeHolds_or hgreater hcandidates hb)
    · exact congrArg Except.ok (anyValue_rangeHolds_or hless hcandidates hb)

theorem order_totalPreorder_nested :
    let a : Value := .array [.int32 1, .document [("x", .null)]]
    let b : Value := .array [.double 1.0, .document [("x", .string "s")]]
    let c : Value := .array [.int64 2]
    a.isSortable = true ∧ b.isSortable = true ∧ c.isSortable = true ∧
      b.order a = .gt ∧ a.order c ≠ .gt ∧ a.looseEq b = false := by
  intro a b c
  have ha : a.isSortable = true := rfl
  have hb : b.isSortable = true := by decide +kernel
  have hc : c.isSortable = true := rfl
  have hab : a.order b = .lt := by decide +kernel
  have hbc : b.order c = .lt := by decide +kernel
  obtain ⟨hswap, htrans, hties, -⟩ := order_totalPreorder ha hb hc
  refine ⟨ha, hb, hc, ?_, ?_, ?_⟩
  · rw [hswap, hab]
    rfl
  · exact htrans (by rw [hab]; decide) (by rw [hbc]; decide)
  · rw [hab] at hties
    simpa using hties

end Value

end RelDoc
