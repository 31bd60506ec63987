import RelDoc.Proofs.LooseEquality

namespace RelDoc.Decimal

open Float.Model

def canonical : UnpackedFloat → Option UnpackedFloat
  | .notANumber => none
  | .zero _ => some (.zero .positive)
  | u => some u

theorem compare_finite {s t : UnpackedFloat.Sign} {m n : Nat} {e f : Int} (hm : 0 < m)
    (hn : 0 < n) : (UnpackedFloat.finite s m e hm).compare (.finite t n f hn) = some .eq ↔
      s = t ∧ e = f ∧ m = n := by
  have hparts : ((compare e f).then (compare m n)) = .eq ↔ e = f ∧ m = n := by
    rw [Ordering.then_eq_eq, Std.compare_eq_iff_eq, Nat.compare_eq_eq]
  have hswapped : ((compare e f).then (compare m n)).swap = .eq ↔ e = f ∧ m = n := by
    rw [Ordering.swap_eq_eq, hparts]
  cases s <;> cases t
  case positive.positive =>
    change some ((compare e f).then (compare m n)) = some .eq ↔ _
    rw [Option.some_inj, hparts, eq_self, true_and]
  case negative.negative =>
    change some ((compare e f).then (compare m n)).swap = some .eq ↔ _
    rw [Option.some_inj, hswapped, eq_self, true_and]
  all_goals exact iff_of_false (by rintro ⟨⟩) (by rintro ⟨⟨⟩, -⟩)

theorem compare_infinity (s t : UnpackedFloat.Sign) :
    (UnpackedFloat.infinity s).compare (.infinity t) = some .eq ↔ s = t := by
  cases s <;> cases t <;> first
    | exact iff_of_true rfl rfl
    | exact iff_of_false (by rintro ⟨⟩) (by rintro ⟨⟩)

theorem compare_eq_some_eq (u v : UnpackedFloat) :
    u.compare v = some .eq ↔ ∃ w, canonical u = some w ∧ canonical v = some w := by
  rcases u with s | _ | s | ⟨s, m, e, hm⟩ <;> rcases v with t | _ | t | ⟨t, n, f, hn⟩
  case infinity.infinity =>
    rw [compare_infinity]
    constructor
    · rintro rfl
      exact ⟨_, rfl, rfl⟩
    · rintro ⟨w, ⟨⟩, ⟨⟩⟩
      rfl
  case zero.zero => exact iff_of_true rfl ⟨_, rfl, rfl⟩
  case finite.finite =>
    rw [compare_finite]
    constructor
    · rintro ⟨rfl, rfl, rfl⟩
      exact ⟨_, rfl, rfl⟩
    · rintro ⟨w, ⟨⟩, ⟨⟩⟩
      exact ⟨rfl, rfl, rfl⟩
  -- Numbers of two kinds are never equal, and neither are two NaNs.
  all_goals
    refine iff_of_false ?_ (by rintro ⟨w, ⟨⟩, ⟨⟩⟩)
    first
      | rintro ⟨⟩
      | (cases s <;> rintro ⟨⟩)
      | (cases t <;> rintro ⟨⟩)

theorem beq_iff (x y : Float) : (x == y) = true ↔
    ∃ w, canonical x.toModel.unpack = some w ∧ canonical y.toModel.unpack = some w := by
  change (x.toModel.unpack.compare y.toModel.unpack == some .eq) = true ↔ _
  rw [beq_iff_eq, compare_eq_some_eq]

theorem beq_symm {x y : Float} (h : (x == y) = true) : (y == x) = true := by
  obtain ⟨w, hx, hy⟩ := (beq_iff x y).mp h
  exact (beq_iff y x).mpr ⟨w, hy, hx⟩

theorem beq_trans {x y z : Float} (hxy : (x == y) = true) (hyz : (y == z) = true) :
    (x == z) = true := by
  obtain ⟨w, hx, hy⟩ := (beq_iff x y).mp hxy
  obtain ⟨w', hy', hz⟩ := (beq_iff y z).mp hyz
  obtain rfl : w = w' := Option.some.inj (hy.symm.trans hy')
  exact (beq_iff x z).mpr ⟨w, hx, hz⟩

end RelDoc.Decimal

namespace RelDoc.Value

section forall₂

variable {α : Type} {r : α → α → Prop} {as bs cs : List α}

theorem forall₂_symm (hr : ∀ a ∈ as, ∀ b, r a b → r b a) (h : List.Forall₂ r as bs) :
    List.Forall₂ r bs as := by
  induction h with
  | nil => exact .nil
  | @cons a b as bs hab hrest ih =>
    obtain ⟨ha, has⟩ := List.forall_mem_cons.mp hr
    exact .cons (ha b hab) (ih has)

theorem forall₂_trans (hr : ∀ a ∈ as, ∀ b c, r a b → r b c → r a c) (hab : List.Forall₂ r as bs)
    (hbc : List.Forall₂ r bs cs) : List.Forall₂ r as cs := by
  induction hab generalizing cs with
  | nil =>
    cases hbc
    exact .nil
  | @cons a b as bs hab hrest ih =>
    obtain ⟨ha, has⟩ := List.forall_mem_cons.mp hr
    cases hbc with
    | @cons _ c _ cs hbc hmore => exact .cons (ha b c hab hbc) (ih has hmore)

end forall₂

theorem structEq_scalar {a : Value} (ha : a.isScalar = true) (hn : a.numeric? = none) (b : Value) :
    a.structEq b = true ↔ b = a := by
  constructor
  · intro h
    unfold structEq at h
    split at h <;> simp_all [isScalar, numeric?]
  · rintro rfl
    cases b <;> first
      | simp [structEq]; done
      | simp [isScalar, numeric?] at ha hn

theorem looseEq_scalar {a : Value} (ha : a.isScalar = true) (b : Value) : a.looseEq b = true ↔
    (∃ x y, a.numeric? = some x ∧ b.numeric? = some y ∧ (x == y) = true) ∨
      a.numeric? = none ∧ b = a := by
  unfold looseEq
  split
  · simp [isScalar] at ha
  · simp [isScalar] at ha
  · split
    · rename_i x y hx hy
      simp [hx, hy]
    · rename_i hnumbers
      rcases hx : a.numeric? with _ | x
      · simp [structEq_scalar ha hx]
      · have hdiffer : a.structEq b ≠ true := by
          intro h
          unfold structEq at h
          split at h <;> simp_all [numeric?]
        have hb : b.numeric? = none := Option.eq_none_iff_forall_ne_some.mpr fun y => hnumbers x y hx
        simp [hdiffer, hb]

theorem looseEq_symm {a b : Value} (h : a.looseEq b = true) : b.looseEq a = true := by
  induction a using shapeInduction generalizing b with
  | scalar a ha =>
    have hb : b.isScalar = true := by
      rwa [isScalar_iff_rank, ← rank_of_looseEq h, ← isScalar_iff_rank]
    rcases (looseEq_scalar ha b).mp h with ⟨x, y, hx, hy, hxy⟩ | ⟨hn, rfl⟩
    · exact (looseEq_scalar hb a).mpr (Or.inl ⟨y, x, hy, hx, Decimal.beq_symm hxy⟩)
    · exact h
  | array as ih =>
    obtain ⟨bs, rfl⟩ := eq_array_of_rank (rank_of_looseEq h).symm
    rw [looseEq, looseEqItems_iff] at h ⊢
    exact forall₂_symm (fun a ha b hab => ih a ha hab) h
  | document as ih =>
    obtain ⟨bs, rfl⟩ := eq_document_of_rank (rank_of_looseEq h).symm
    rw [looseEq, looseEqFields_iff] at h ⊢
    exact forall₂_symm (fun a ha b hab => ⟨hab.1.symm, ih a ha hab.2⟩) h

theorem looseEq_trans {a b c : Value} (hab : a.looseEq b = true) (hbc : b.looseEq c = true) :
    a.looseEq c = true := by
  induction a using shapeInduction generalizing b c with
  | scalar a ha =>
    have hb : b.isScalar = true := by
      rwa [isScalar_iff_rank, ← rank_of_looseEq hab, ← isScalar_iff_rank]
    rcases (looseEq_scalar ha b).mp hab with ⟨x, y, hx, hy, hxy⟩ | ⟨-, rfl⟩
    · rcases (looseEq_scalar hb c).mp hbc with ⟨y', z, hy', hz, hyz⟩ | ⟨hn, -⟩
      · obtain rfl : y = y' := Option.some.inj (hy.symm.trans hy')
        exact (looseEq_scalar ha c).mpr (Or.inl ⟨x, z, hx, hz, Decimal.beq_trans hxy hyz⟩)
      · rw [hn] at hy
        cases hy
    · exact hbc
  | array as ih =>
    obtain ⟨bs, rfl⟩ := eq_array_of_rank (rank_of_looseEq hab).symm
    obtain ⟨cs, rfl⟩ := eq_array_of_rank (rank_of_looseEq hbc).symm
    rw [looseEq, looseEqItems_iff] at hab hbc ⊢
    exact forall₂_trans (fun a ha b c hab hbc => ih a ha hab hbc) hab hbc
  | document as ih =>
    obtain ⟨bs, rfl⟩ := eq_document_of_rank (rank_of_looseEq hab).symm
    obtain ⟨cs, rfl⟩ := eq_document_of_rank (rank_of_looseEq hbc).symm
    rw [looseEq, looseEqFields_iff] at hab hbc ⊢
    exact forall₂_trans
      (fun a ha b c hab hbc => ⟨hab.1.trans hbc.1, ih a ha hab.2 hbc.2⟩) hab hbc

end RelDoc.Value
