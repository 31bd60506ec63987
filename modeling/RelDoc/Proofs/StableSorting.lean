import RelDoc.Plan.Basic
import RelDoc.Proofs.OrderedColumns
import RelDoc.Proofs.SortableValues

namespace RelDoc

/-- Items in an order. Those that tie come as they came before. -/
structure StablySorted {α : Type} (before : α → α → Prop) (ties : α → α → Bool)
    (items sorted : List α) : Prop where
  perm : sorted.Perm items
  ordered : sorted.Pairwise fun x y => before x y ∨ ties x y = true
  stable : ∀ x ∈ items, sorted.filter (ties x) = items.filter (ties x)

section comparison

variable {α : Type} {cmp : α → α → Ordering} {items : List α}

structure ComparesAll (cmp : α → α → Ordering) (items : List α) : Prop where
  swap : ∀ x ∈ items, ∀ y ∈ items, cmp y x = (cmp x y).swap
  chained : ∀ x ∈ items, ∀ y ∈ items, ∀ z ∈ items, Value.Chained (cmp x y) (cmp y z) (cmp x z)

namespace ComparesAll

variable (h : ComparesAll cmp items) {x y z : α}
include h

theorem self (hx : x ∈ items) : cmp x x = .eq := by
  have hswap := h.swap x hx x hx
  cases hself : cmp x x <;> rw [hself] at hswap <;> first | rfl | cases hswap

theorem eq_symm (hx : x ∈ items) (hy : y ∈ items) (hxy : cmp x y = .eq) : cmp y x = .eq := by
  rw [h.swap x hx y hy, hxy]
  rfl

theorem eq_trans (hx : x ∈ items) (hy : y ∈ items) (hz : z ∈ items) (hxy : cmp x y = .eq)
    (hyz : cmp y z = .eq) : cmp x z = .eq := by
  rw [h.chained x hx y hy z hz (by rw [hxy]; decide) (by rw [hyz]; decide), hxy, hyz]
  rfl

theorem le_trans : ∀ x ∈ items, ∀ y ∈ items, ∀ z ∈ items, (cmp x y != .gt) = true →
    (cmp y z != .gt) = true → (cmp x z != .gt) = true := by
  intro x hx y hy z hz hxy hyz
  rw [bne_iff_ne] at hxy hyz ⊢
  rw [h.chained x hx y hy z hz hxy hyz]
  cases hcmp : cmp x y <;> first | exact absurd hcmp hxy | exact hyz | rintro ⟨⟩

theorem le_total : ∀ x ∈ items, ∀ y ∈ items, (cmp x y != .gt || cmp y x != .gt) = true := by
  intro x hx y hy
  rw [h.swap x hx y hy]
  cases cmp x y <;> rfl

theorem stablySorted {before : α → α → Prop} {ties : α → α → Bool}
    (hbefore : ∀ x ∈ items, ∀ y ∈ items, cmp x y = .lt ↔ before x y)
    (hties : ∀ x ∈ items, ∀ y ∈ items, cmp x y = .eq ↔ ties x y = true) :
    StablySorted before ties items (items.mergeSort fun x y => cmp x y != .gt) := by
  have hperm := List.mergeSort_perm items fun x y => cmp x y != .gt
  refine ⟨hperm, ?_, ?_⟩
  · apply (pairwise_mergeSort_of_mem h.le_trans h.le_total).imp_of_mem
    intro x y hx hy hxy
    have hx := hperm.subset hx
    have hy := hperm.subset hy
    cases hcmp : cmp x y with
    | lt => exact Or.inl ((hbefore x hx y hy).mp hcmp)
    | eq => exact Or.inr ((hties x hx y hy).mp hcmp)
    | gt =>
      rw [hcmp] at hxy
      cases hxy
  · intro x hx
    -- What ties with one item ties with each other, so it is in order already.
    have hclass : (items.filter (ties x)).Pairwise fun y z => (cmp y z != .gt) = true := by
      apply List.pairwise_of_forall_mem_list
      intro y hy z hz
      obtain ⟨hy, hxy⟩ := List.mem_filter.mp hy
      obtain ⟨hz, hxz⟩ := List.mem_filter.mp hz
      have hyx := h.eq_symm hx hy ((hties x hx y hy).mpr hxy)
      rw [h.eq_trans hy hx hz hyx ((hties x hx z hz).mpr hxz)]
      rfl
    have hsublist := (sublist_mergeSort_of_mem h.le_trans h.le_total List.filter_sublist
      hclass).filter (ties x)
    simp only [List.filter_filter, Bool.and_self] at hsublist
    exact (hsublist.eq_of_length (hperm.filter _).length_eq.symm).symm

end ComparesAll

section unique

variable {before : α → α → Prop} {ties : α → α → Bool} {l l' : List α}

theorem eq_of_ordered (hself : ∀ x ∈ l, ties x x = true)
    (hstrict : ∀ x ∈ l, ∀ y ∈ l, before x y → ¬before y x ∧ ties y x = false)
    (hl : l.Pairwise fun x y => before x y ∨ ties x y = true)
    (hl' : l'.Pairwise fun x y => before x y ∨ ties x y = true) (hperm : l.Perm l')
    (hclasses : ∀ x ∈ l, l.filter (ties x) = l'.filter (ties x)) : l = l' := by
  induction l generalizing l' with
  | nil => exact hperm.nil_eq
  | cons x xs ih =>
    rcases l' with _ | ⟨y, ys⟩
    · exact absurd hperm.symm.nil_eq (List.cons_ne_nil x xs).symm
    · have hxmem : x ∈ x :: xs := List.mem_cons_self
      have hymem : y ∈ x :: xs := hperm.symm.subset List.mem_cons_self
      have hfirst : x = y := by
        by_contra hne
        have hy : y ∈ xs := (List.mem_cons.mp hymem).resolve_left (Ne.symm hne)
        have hx : x ∈ ys := (List.mem_cons.mp (hperm.subset hxmem)).resolve_left hne
        have hxy := (List.pairwise_cons.mp hl).1 y hy
        have hyx := (List.pairwise_cons.mp hl').1 x hx
        rcases hxy with hbefore | hties
        · obtain ⟨hnot, hapart⟩ := hstrict x hxmem y hymem hbefore
          rw [hapart] at hyx
          exact hyx.elim hnot Bool.false_ne_true
        · have hclass := hclasses x hxmem
          rw [List.filter_cons_of_pos (hself x hxmem), List.filter_cons_of_pos hties] at hclass
          exact hne (List.cons.inj hclass).1
      subst hfirst
      congr 1
      apply ih (fun z hz => hself z (List.mem_cons_of_mem _ hz))
      · exact fun z hz w hw => hstrict z (List.mem_cons_of_mem _ hz) w (List.mem_cons_of_mem _ hw)
      · exact hl.of_cons
      · exact hl'.of_cons
      · exact hperm.cons_inv
      · intro z hz
        have hclass := hclasses z (List.mem_cons_of_mem _ hz)
        rw [List.filter_cons, List.filter_cons] at hclass
        split at hclass
        · exact (List.cons.inj hclass).2
        · exact hclass

theorem StablySorted.unique {sorted other : List α} (hself : ∀ x ∈ items, ties x x = true)
    (hstrict : ∀ x ∈ items, ∀ y ∈ items, before x y → ¬before y x ∧ ties y x = false)
    (h : StablySorted before ties items sorted) (hother : StablySorted before ties items other) :
    other = sorted := by
  have hmem : ∀ x ∈ other, x ∈ items := fun x hx => hother.perm.subset hx
  apply eq_of_ordered (fun x hx => hself x (hmem x hx))
    (fun x hx y hy => hstrict x (hmem x hx) y (hmem y hy)) hother.ordered h.ordered
    (hother.perm.trans h.perm.symm)
  intro x hx
  rw [hother.stable x (hmem x hx), h.stable x (hmem x hx)]

end unique

end comparison

namespace Direction

variable {direction : Direction} {v w x : Value}

def order : Direction → Value → Value → Ordering
  | .ascending, v, w => v.order w
  | .descending, v, w => w.order v

def Precedes (direction : Direction) (v w : Value) : Prop := direction.order v w = .lt

instance : Decidable (direction.Precedes v w) := inferInstanceAs (Decidable (_ = _))

theorem order_swap (hv : v.isSortable = true) (hw : w.isSortable = true) :
    direction.order w v = (direction.order v w).swap := by
  cases direction with
  | ascending => exact Value.order_swap hv hw
  | descending => exact Value.order_swap hw hv

theorem order_chained (hv : v.isSortable = true) (hw : w.isSortable = true)
    (hx : x.isSortable = true) :
    Value.Chained (direction.order v w) (direction.order w x) (direction.order v x) := by
  cases direction with
  | ascending => exact Value.order_chained hv hw hx
  | descending => exact (Value.order_chained hx hw hv).reverse

theorem order_eq_iff (hv : v.isSortable = true) (hw : w.isSortable = true) :
    direction.order v w = .eq ↔ v.looseEq w = true := by
  rw [← Value.order_eq_iff hv hw]
  cases direction with
  | ascending => rfl
  | descending =>
    change w.order v = .eq ↔ _
    rw [Value.order_swap hv hw]
    cases v.order w <;> decide

end Direction

namespace Document

def Precedes : List (String × Direction) → Document → Document → Prop
  | [], _, _ => False
  | (column, direction) :: rest, d, e =>
    direction.Precedes (d.firstValue column) (e.firstValue column) ∨
      (d.firstValue column).looseEq (e.firstValue column) = true ∧ Precedes rest d e

instance decidablePrecedes : (keys : List (String × Direction)) → (d e : Document) →
    Decidable (Precedes keys d e)
  | [], _, _ => inferInstanceAs (Decidable False)
  | (_, _) :: rest, d, e =>
    have := decidablePrecedes rest d e
    inferInstanceAs (Decidable (_ ∨ _ ∧ _))

def ties (keys : List (String × Direction)) (d e : Document) : Bool :=
  keys.all fun key => (d.firstValue key.1).looseEq (e.firstValue key.1)

def IsComparable (keys : List (String × Direction)) (d : Document) : Prop :=
  ∀ key ∈ keys, (d.firstValue key.1).isSortable = true

end Document

namespace Sorting

open Document

def keyOf (key : String × Direction) : Key := (key.1, key.2 == .descending)

theorem keys_signs {columns : List (String × Direction)} (h : ∀ key ∈ columns, key.1 ≠ "$natural") :
    Sorting.keys (columns.map fun key => (key.1, key.2.sign)) = .ok (columns.map keyOf) := by
  have hascending : decide (Decimal.nearest (1 : Int32).toInt < 0.0) = false := by decide +kernel
  have hdescending : decide (Decimal.nearest (-1 : Int32).toInt < 0.0) = true := by decide +kernel
  induction columns with
  | nil => rfl
  | cons key rest ih =>
    obtain ⟨column, direction⟩ := key
    obtain ⟨hcolumn, hrest⟩ := List.forall_mem_cons.mp h
    have hsign (x : Float) (hx : direction.sign.numeric? = some x)
        (hflag : decide (x < 0.0) = (direction == .descending)) :
        Sorting.keys ((column, direction.sign) :: rest.map fun key => (key.1, key.2.sign)) =
          .ok (keyOf (column, direction) :: rest.map keyOf) := by
      rw [Sorting.keys, hx, ih hrest]
      change Except.ok (if column = "$natural" then rest.map keyOf
        else (column, decide (x < 0.0)) :: rest.map keyOf) = _
      rw [if_neg hcolumn, hflag]
      rfl
    cases direction with
    | ascending => exact hsign _ rfl hascending
    | descending => exact hsign _ rfl hdescending

variable {keys : List (String × Direction)} {docs : List Document} {d e f : Document}

theorem compareBy_keyOf {key : String × Direction} (hd : (d.firstValue key.1).isSortable = true)
    (he : (e.firstValue key.1).isSortable = true) (more : List Key) :
    compareBy d e (keyOf key :: more) =
      (key.2.order (d.firstValue key.1) (e.firstValue key.1)).then (compareBy d e more) := by
  obtain ⟨column, direction⟩ := key
  cases direction with
  | ascending => rfl
  | descending =>
    change (((d.firstValue column).order (e.firstValue column)).swap).then _ = _
    rw [← Value.order_swap hd he]
    rfl

theorem compareBy_swap (hd : d.IsComparable keys) (he : e.IsComparable keys) :
    compareBy e d (keys.map keyOf) = (compareBy d e (keys.map keyOf)).swap := by
  induction keys with
  | nil => rfl
  | cons key rest ih =>
    obtain ⟨hdkey, hdrest⟩ := List.forall_mem_cons.mp hd
    obtain ⟨hekey, herest⟩ := List.forall_mem_cons.mp he
    rw [List.map_cons, compareBy_keyOf hekey hdkey, compareBy_keyOf hdkey hekey,
      Ordering.swap_then, ← Direction.order_swap hdkey hekey, ih hdrest herest]

theorem compareBy_chained (hd : d.IsComparable keys) (he : e.IsComparable keys)
    (hf : f.IsComparable keys) : Value.Chained (compareBy d e (keys.map keyOf))
      (compareBy e f (keys.map keyOf)) (compareBy d f (keys.map keyOf)) := by
  induction keys with
  | nil => exact fun _ _ => rfl
  | cons key rest ih =>
    obtain ⟨hdkey, hdrest⟩ := List.forall_mem_cons.mp hd
    obtain ⟨hekey, herest⟩ := List.forall_mem_cons.mp he
    obtain ⟨hfkey, hfrest⟩ := List.forall_mem_cons.mp hf
    rw [List.map_cons, compareBy_keyOf hdkey hekey, compareBy_keyOf hekey hfkey,
      compareBy_keyOf hdkey hfkey]
    exact (Direction.order_chained hdkey hekey hfkey).andThen fun _ _ => ih hdrest herest hfrest

theorem compareBy_eq_iff (hd : d.IsComparable keys) (he : e.IsComparable keys) :
    compareBy d e (keys.map keyOf) = .eq ↔ ties keys d e = true := by
  induction keys with
  | nil => exact iff_of_true rfl rfl
  | cons key rest ih =>
    obtain ⟨hdkey, hdrest⟩ := List.forall_mem_cons.mp hd
    obtain ⟨hekey, herest⟩ := List.forall_mem_cons.mp he
    rw [List.map_cons, compareBy_keyOf hdkey hekey, Ordering.then_eq_eq,
      Direction.order_eq_iff hdkey hekey, ih hdrest herest, ties, ties, List.all_cons,
      Bool.and_eq_true]

theorem compareBy_lt_iff (hd : d.IsComparable keys) (he : e.IsComparable keys) :
    compareBy d e (keys.map keyOf) = .lt ↔ Precedes keys d e := by
  induction keys with
  | nil => exact iff_of_false (by rintro ⟨⟩) id
  | cons key rest ih =>
    obtain ⟨hdkey, hdrest⟩ := List.forall_mem_cons.mp hd
    obtain ⟨hekey, herest⟩ := List.forall_mem_cons.mp he
    rw [List.map_cons, compareBy_keyOf hdkey hekey, Ordering.then_eq_lt,
      Direction.order_eq_iff hdkey hekey, ih hdrest herest]
    rfl

theorem comparesAll (h : ∀ d ∈ docs, d.IsComparable keys) :
    ComparesAll (fun d e => compareBy d e (keys.map keyOf)) docs where
  swap d hd e he := compareBy_swap (h d hd) (h e he)
  chained d hd e he f hf := compareBy_chained (h d hd) (h e he) (h f hf)

theorem stablySorted_mergeSort (h : ∀ d ∈ docs, d.IsComparable keys) :
    StablySorted (Precedes keys) (ties keys) docs
      (docs.mergeSort fun d e => compareBy d e (keys.map keyOf) != .gt) :=
  (comparesAll h).stablySorted (fun d hd e he => compareBy_lt_iff (h d hd) (h e he))
    fun d hd e he => compareBy_eq_iff (h d hd) (h e he)

theorem stablySorted_unique (h : ∀ d ∈ docs, d.IsComparable keys) {sorted other : List Document}
    (hsorted : StablySorted (Precedes keys) (ties keys) docs sorted)
    (hother : StablySorted (Precedes keys) (ties keys) docs other) : other = sorted := by
  have hall := comparesAll h
  apply StablySorted.unique _ _ hsorted hother
  · exact fun d hd => (compareBy_eq_iff (h d hd) (h d hd)).mp (hall.self hd)
  · intro d hd e he hde
    have hlt := (compareBy_lt_iff (h d hd) (h e he)).mpr hde
    have hgt : compareBy e d (keys.map keyOf) = .gt := by
      rw [compareBy_swap (h d hd) (h e he), hlt]
      rfl
    refine ⟨fun hed => ?_, Bool.eq_false_iff.mpr fun hties => ?_⟩
    · rw [(compareBy_lt_iff (h e he) (h d hd)).mpr hed] at hgt
      cases hgt
    · rw [(compareBy_eq_iff (h e he) (h d hd)).mpr hties] at hgt
      cases hgt

end Sorting

end RelDoc
