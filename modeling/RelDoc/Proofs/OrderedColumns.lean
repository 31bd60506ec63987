import RelDoc.Pipeline.Basic
import RelDoc.Proofs.IntegerRounding

namespace RelDoc

inductive KeyType where
  | objectId
  | string
  | int32
  | date

namespace KeyType

def has : KeyType → Value → Bool
  | .objectId, .objectId _ | .string, .string _ | .int32, .int32 _ | .date, .date _ => true
  | _, _ => false

variable {t : KeyType} {a b c : Value}

theorem order_int32 (m n : Int32) : (Value.int32 m).order (.int32 n) = compare m.toInt n.toInt := by
  have hm : m.toInt.natAbs < 2 ^ 31 + 1 := by
    have := Int32.le_toInt m
    have := Int32.toInt_lt m
    omega
  have hn : n.toInt.natAbs < 2 ^ 31 + 1 := by
    have := Int32.le_toInt n
    have := Int32.toInt_lt n
    omega
  have horder := Decimal.order?_nearest (a := m.toInt) (b := n.toInt) (by omega) (by omega)
  rw [Decimal.rounded_eq (by omega), Decimal.rounded_eq (by omega)] at horder
  change (Decimal.order? (Decimal.nearest m.toInt) (Decimal.nearest n.toInt)).getD .eq = _
  rw [horder]
  rfl

def idKey : Value → Nat
  | .objectId id => id.bits.toNat
  | _ => 0

def textKey : Value → String
  | .string s => s
  | _ => ""

def numberKey : Value → Int
  | .int32 n => n.toInt
  | .date n => n.toInt
  | _ => 0

theorem exists_key (t : KeyType) : ∃ (α : Type) (_ : Ord α) (_ : Std.TransOrd α)
    (_ : Std.LawfulEqOrd α) (key : Value → α), ∀ a b, t.has a = true → t.has b = true →
      a.order b = compare (key a) (key b) ∧ (key a = key b → a = b) := by
  cases t with
  | objectId =>
    refine ⟨Nat, _, inferInstance, inferInstance, idKey, fun a b ha hb => ?_⟩
    cases a <;> try cases ha
    cases b <;> try cases hb
    rename_i id id'
    refine ⟨rfl, fun h => ?_⟩
    obtain ⟨bits⟩ := id
    obtain ⟨bits'⟩ := id'
    have hbits : bits = bits' := BitVec.eq_of_toNat_eq h
    rw [hbits]
  | string =>
    refine ⟨String, _, inferInstance, inferInstance, textKey, fun a b ha hb => ?_⟩
    cases a <;> try cases ha
    cases b <;> try cases hb
    exact ⟨rfl, fun h => congrArg Value.string h⟩
  | int32 =>
    refine ⟨Int, _, inferInstance, inferInstance, numberKey, fun a b ha hb => ?_⟩
    cases a <;> try cases ha
    cases b <;> try cases hb
    exact ⟨order_int32 _ _, fun h => congrArg Value.int32 (Int32.toInt_inj.mp h)⟩
  | date =>
    refine ⟨Int, _, inferInstance, inferInstance, numberKey, fun a b ha hb => ?_⟩
    cases a <;> try cases ha
    cases b <;> try cases hb
    exact ⟨rfl, fun h => congrArg Value.date (Int64.toInt_inj.mp h)⟩

theorem order_swap (ha : t.has a = true) (hb : t.has b = true) : b.order a = (a.order b).swap := by
  obtain ⟨α, _, _, _, key, hkey⟩ := t.exists_key
  rw [(hkey a b ha hb).1, (hkey b a hb ha).1]
  exact Std.OrientedCmp.eq_swap

theorem eq_of_order (ha : t.has a = true) (hb : t.has b = true) (h : a.order b = .eq) : a = b := by
  obtain ⟨α, _, _, _, key, hkey⟩ := t.exists_key
  obtain ⟨horder, hinj⟩ := hkey a b ha hb
  rw [horder] at h
  exact hinj (Std.LawfulEqCmp.eq_of_compare h)

theorem order_trans (ha : t.has a = true) (hb : t.has b = true) (hc : t.has c = true)
    (hab : (a.order b).isLE = true) (hbc : (b.order c).isLE = true) : (a.order c).isLE = true := by
  obtain ⟨α, _, _, _, key, hkey⟩ := t.exists_key
  rw [(hkey a b ha hb).1] at hab
  rw [(hkey b c hb hc).1] at hbc
  rw [(hkey a c ha hc).1]
  exact Std.TransCmp.isLE_trans hab hbc

theorem rank_eq (ha : t.has a = true) (hb : t.has b = true) : a.rank = b.rank := by
  cases t <;> cases a <;> first | (cases ha; done) | (cases b <;> first | rfl | cases hb)

end KeyType

def Document.Before (column : String) (d e : Document) : Prop :=
  (d.firstValue column).order (e.firstValue column) = .lt

structure KeyedBy (t : KeyType) (column : String) (docs : List Document) : Prop where
  single : ∀ d ∈ docs, ∃ v, d.lookup column = [v] ∧ t.has v = true
  distinct : (docs.map (·.firstValue column)).Nodup

namespace KeyedBy

variable {t : KeyType} {column : String} {docs : List Document}

theorem lookup_eq (h : KeyedBy t column docs) {d : Document} (hd : d ∈ docs) :
    d.lookup column = [d.firstValue column] := by
  obtain ⟨v, hv, -⟩ := h.single d hd
  rw [Document.firstValue, Document.first?, hv]
  rfl

theorem has_firstValue (h : KeyedBy t column docs) {d : Document} (hd : d ∈ docs) :
    t.has (d.firstValue column) = true := by
  obtain ⟨v, hv, hhas⟩ := h.single d hd
  have hvalue := (h.lookup_eq hd).symm.trans hv
  rw [List.singleton_inj.mp hvalue]
  exact hhas

theorem sublist (h : KeyedBy t column docs) {some : List Document} (hsome : some.Sublist docs) :
    KeyedBy t column some where
  single d hd := h.single d (hsome.subset hd)
  distinct := h.distinct.sublist (hsome.map _)

theorem perm (h : KeyedBy t column docs) {others : List Document} (hothers : others.Perm docs) :
    KeyedBy t column others where
  single d hd := h.single d (hothers.subset hd)
  distinct := (hothers.map _).nodup_iff.mpr h.distinct

end KeyedBy

section members

variable {α : Type} {le : α → α → Bool} {l : List α}

theorem mergeSort_attach (le : α → α → Bool) (l : List α) :
    (l.attach.mergeSort fun a b => le a.1 b.1).map Subtype.val = l.mergeSort le := by
  have hmap := List.map_mergeSort (s := le) (f := Subtype.val) (l := l.attach) fun a _ b _ => rfl
  rw [hmap, List.attach_map_subtype_val]

variable (htrans : ∀ a ∈ l, ∀ b ∈ l, ∀ c ∈ l, le a b = true → le b c = true → le a c = true)
  (htotal : ∀ a ∈ l, ∀ b ∈ l, (le a b || le b a) = true)
include htrans htotal

theorem pairwise_mergeSort_of_mem : (l.mergeSort le).Pairwise fun a b => le a b = true := by
  rw [← mergeSort_attach, List.pairwise_map]
  apply List.pairwise_mergeSort
  · exact fun a b c => htrans a.1 a.2 b.1 b.2 c.1 c.2
  · exact fun a b => htotal a.1 a.2 b.1 b.2

theorem sublist_mergeSort_of_mem {some : List α} (hsome : some.Sublist l)
    (hsorted : some.Pairwise fun a b => le a b = true) : some.Sublist (l.mergeSort le) := by
  rw [← List.attach_map_subtype_val l] at hsome
  obtain ⟨members, hmembers, rfl⟩ := List.sublist_map_iff.mp hsome
  rw [← mergeSort_attach]
  apply List.Sublist.map
  apply List.sublist_mergeSort
  · exact fun a b c => htrans a.1 a.2 b.1 b.2 c.1 c.2
  · exact fun a b => htotal a.1 a.2 b.1 b.2
  · exact List.pairwise_map.mp hsorted
  · exact hmembers

end members

namespace Sorting

variable {t : KeyType} {column : String} {docs : List Document}

def ascending (column : String) (docs : List Document) : List Document :=
  docs.mergeSort fun a b => compareBy a b [(column, false)] != .gt

theorem sort_ascending (hcolumn : column ≠ "$natural") (docs : List Document) :
    sort [(column, .int32 1)] docs = .ok (ascending column docs) := by
  have hkeys : keys [(column, .int32 1)] = .ok [(column, false)] := by
    have hdirection : decide (Decimal.nearest (1 : Int32).toInt < 0.0) = false := by decide +kernel
    rw [keys]
    change (keys []).map (fun more => if column = "$natural" then more
      else (column, decide (Decimal.nearest (1 : Int32).toInt < 0.0)) :: more) = _
    rw [hdirection]
    simp only [hcolumn, if_false]
    rfl
  rw [sort, hkeys]
  rfl

theorem ascending_perm (column : String) (docs : List Document) :
    (ascending column docs).Perm docs := List.mergeSort_perm _ _

theorem compareBy_ascending (column : String) (d e : Document) :
    (compareBy d e [(column, false)] != .gt) =
      ((d.firstValue column).order (e.firstValue column)).isLE := by
  have hcompare : compareBy d e [(column, false)] =
      (d.firstValue column).order (e.firstValue column) := Ordering.then_eq
  rw [hcompare]
  cases (d.firstValue column).order (e.firstValue column) <;> rfl

theorem pairwise_ascending (h : KeyedBy t column docs) :
    (ascending column docs).Pairwise (Document.Before column) := by
  have hsorted : (ascending column docs).Pairwise fun d e =>
      (compareBy d e [(column, false)] != .gt) = true := by
    apply pairwise_mergeSort_of_mem
    · intro a ha b hb c hc
      rw [compareBy_ascending, compareBy_ascending, compareBy_ascending]
      exact KeyType.order_trans (h.has_firstValue ha) (h.has_firstValue hb) (h.has_firstValue hc)
    · intro a ha b hb
      rw [compareBy_ascending, compareBy_ascending,
        KeyType.order_swap (h.has_firstValue ha) (h.has_firstValue hb)]
      cases (a.firstValue column).order (b.firstValue column) <;> rfl
  have hkeyed := h.perm (ascending_perm column docs)
  have hdistinct := List.pairwise_map.mp hkeyed.distinct
  apply (hsorted.and hdistinct).imp_of_mem
  intro d e hd he hde
  obtain ⟨hle, hne⟩ := hde
  rw [compareBy_ascending] at hle
  have horder : (d.firstValue column).order (e.firstValue column) ≠ .eq :=
    fun heq => hne (KeyType.eq_of_order (hkeyed.has_firstValue hd) (hkeyed.has_firstValue he) heq)
  rw [Document.Before]
  generalize (d.firstValue column).order (e.firstValue column) = o at hle horder ⊢
  cases o with
  | lt => rfl
  | eq => exact absurd rfl horder
  | gt => cases hle

theorem before_asymm (h : KeyedBy t column docs) {d e : Document} (hd : d ∈ docs) (he : e ∈ docs)
    (hde : Document.Before column d e) : ¬Document.Before column e d := by
  intro hed
  rw [Document.Before, KeyType.order_swap (h.has_firstValue hd) (h.has_firstValue he), hde] at hed
  cases hed

theorem ascending_filter (h : KeyedBy t column docs) (keep : Document → Bool) :
    ascending column (docs.filter keep) = (ascending column docs).filter keep := by
  have hperm : (ascending column (docs.filter keep)).Perm ((ascending column docs).filter keep) :=
    (ascending_perm column _).trans ((ascending_perm column docs).symm.filter keep)
  have hmem : ∀ d ∈ ascending column (docs.filter keep), d ∈ docs := by
    intro d hd
    have := (ascending_perm column _).subset hd
    exact (List.mem_filter.mp this).1
  have hantisymm : ∀ d e, d ∈ ascending column (docs.filter keep) →
      e ∈ (ascending column docs).filter keep → Document.Before column d e →
        Document.Before column e d → d = e := by
    intro d e hd he hde hed
    have hd := hmem d hd
    have he := hmem e (hperm.symm.subset he)
    exact absurd hed (before_asymm h hd he hde)
  exact hperm.eq_of_pairwise hantisymm (pairwise_ascending (h.sublist List.filter_sublist))
    ((pairwise_ascending h).filter keep)

theorem filter_after {front rest : List Document} {d : Document} (h : KeyedBy t column docs)
    (hsplit : ascending column docs = front ++ d :: rest) :
    (ascending column docs).filter
      (fun e => (e.firstValue column).order (d.firstValue column) == .gt) = rest := by
  have hpairwise := pairwise_ascending h
  have hkeyed := h.perm (ascending_perm column docs)
  rw [hsplit] at hpairwise hkeyed ⊢
  obtain ⟨-, htail, hfront⟩ := List.pairwise_append.mp hpairwise
  have hbehind := (List.pairwise_cons.mp htail).1
  have hhas : ∀ e ∈ front ++ d :: rest, t.has (e.firstValue column) = true :=
    fun e he => hkeyed.has_firstValue he
  have hd := hhas d (by simp)
  have hself : (d.firstValue column).order (d.firstValue column) ≠ .gt := by
    intro hgt
    have hswap := KeyType.order_swap hd hd
    rw [hgt] at hswap
    cases hswap
  rw [List.filter_append, List.filter_cons_of_neg (by simpa using hself),
    List.filter_eq_nil_iff.mpr, List.nil_append, List.filter_eq_self]
  · intro e he
    have hbefore : Document.Before column d e := hbehind e he
    rw [KeyType.order_swap hd (hhas e (by simp [he])), hbefore]
    rfl
  · intro e he
    have hbefore : Document.Before column e d := hfront e he d (by simp)
    rw [hbefore]
    decide

end Sorting

end RelDoc
