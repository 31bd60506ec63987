import RelDoc.Fingerprint
import RelDoc.Plan.Strategy
import RelDoc.Proofs.InstantTexts
import RelDoc.Proofs.JsonTexts

namespace RelDoc

open Wire

namespace Literal

mutual

/-- Is a literal told by its text? Stored values, infinities and NaN are not. -/
def isLegible : Literal → Bool
  | .float x => x.isFinite
  | .instant t => t.isOnClock
  | .array items => itemsLegible items
  | .map pairs => pairsLegible pairs
  | .native _ => false
  | _ => true
termination_by structural l => l

def itemsLegible : List Literal → Bool
  | [] => true
  | l :: rest => isLegible l && itemsLegible rest
termination_by structural items => items

def pairsLegible : List (String × Literal) → Bool
  | [] => true
  | (_, l) :: rest => isLegible l && pairsLegible rest
termination_by structural pairs => pairs

end

def kind : Literal → String
  | .null => "null"
  | .boolean _ => "bool"
  | .integer _ => "int"
  | .float _ => "float"
  | .string _ => "string"
  | .bytes _ => "bytes"
  | .instant _ => "date_time"
  | .array _ => "array"
  | .map _ => "map"
  | .native _ => "native"

def content : Literal → Json
  | .null => .null
  | .boolean b => .boolean b
  | .integer n => .integer n.toInt
  | .float x => .double x
  | .string s => .string s
  | .bytes bs => .bytes bs
  | .instant t => .string (t.text "Z")
  | .array items => .array (itemsJson items)
  | .map pairs => .array (pairsJson pairs)
  | .native v => v.toJson

theorem toJson_eq (l : Literal) :
    l.toJson = if l.kind = "null" then .string "null" else .object [(l.kind, l.content)] := by
  cases l <;> rfl

theorem content_of_null {l : Literal} (h : l.kind = "null") : l.content = .null := by
  cases l with
  | null => rfl
  | _ => simp [kind] at h

theorem kind_of_text {l m : Literal} (h : l.toJson.text = m.toJson.text) :
    l.kind = m.kind ∧ l.content.text = m.content.text := by
  rw [toJson_eq, toJson_eq] at h
  split at h <;> split at h
  case isTrue.isTrue hl hm =>
    rw [content_of_null hl, content_of_null hm]
    exact ⟨hl.trans hm.symm, rfl⟩
  case isTrue.isFalse => cases h
  case isFalse.isTrue => cases h
  case isFalse.isFalse =>
    obtain ⟨hfield, -⟩ := List.cons.inj (Json.text_object_inj h)
    obtain ⟨hkind, hcontent⟩ := Prod.mk.inj hfield
    exact ⟨hkind, hcontent⟩

mutual

theorem eq_of_text : ∀ l m : Literal, l.isLegible = true → m.isLegible = true →
    l.toJson.text = m.toJson.text → l = m
  | .null, m, _, _, h => by
    obtain ⟨hkind, -⟩ := kind_of_text h
    cases m <;> first | rfl | simp [kind] at hkind
  | .boolean a, m, _, _, h => by
    obtain ⟨hkind, hcontent⟩ := kind_of_text h
    cases m <;> simp [kind] at hkind
    case boolean b => rw [Json.text_boolean_inj hcontent]
  | .integer a, m, _, _, h => by
    obtain ⟨hkind, hcontent⟩ := kind_of_text h
    cases m <;> simp [kind] at hkind
    case integer b => rw [Int64.toInt_inj.mp (Json.text_integer_inj hcontent)]
  | .float x, m, hl, hm, h => by
    obtain ⟨hkind, hcontent⟩ := kind_of_text h
    cases m <;> simp [kind] at hkind
    case float y => rw [Json.text_double_inj hl hm hcontent]
  | .string a, m, _, _, h => by
    obtain ⟨hkind, hcontent⟩ := kind_of_text h
    cases m <;> simp [kind] at hkind
    case string b => rw [Json.text_string_iff.mp hcontent]
  | .bytes a, m, _, _, h => by
    obtain ⟨hkind, hcontent⟩ := kind_of_text h
    cases m <;> simp [kind] at hkind
    case bytes b => rw [Json.text_bytes_inj hcontent]
  | .instant t, m, hl, hm, h => by
    obtain ⟨hkind, hcontent⟩ := kind_of_text h
    cases m <;> simp [kind] at hkind
    case instant u =>
      rw [Calendar.Instant.text_inj hl hm (Json.text_string_iff.mp hcontent)]
  | .array items, m, hl, hm, h => by
    obtain ⟨hkind, hcontent⟩ := kind_of_text h
    cases m <;> simp [kind] at hkind
    case array more =>
      rw [items_eq_of_text items more hl hm (Json.text_array_inj hcontent)]
  | .map pairs, m, hl, hm, h => by
    obtain ⟨hkind, hcontent⟩ := kind_of_text h
    cases m <;> simp [kind] at hkind
    case map more =>
      rw [pairs_eq_of_text pairs more hl hm (Json.text_array_inj hcontent)]
  | .native v, _, hl, _, _ => by cases hl

theorem items_eq_of_text : ∀ ls ms : List Literal, itemsLegible ls = true → itemsLegible ms = true →
    (itemsJson ls).map Json.text = (itemsJson ms).map Json.text → ls = ms
  | [], [], _, _, _ => rfl
  | l :: ls, m :: ms, hl, hm, h => by
    rw [itemsLegible, Bool.and_eq_true] at hl hm
    obtain ⟨htext, hrest⟩ := List.cons.inj h
    rw [eq_of_text l m hl.1 hm.1 htext, items_eq_of_text ls ms hl.2 hm.2 hrest]
  | [], _ :: _, _, _, h => by cases h
  | _ :: _, [], _, _, h => by cases h

theorem pairs_eq_of_text : ∀ ps qs : List (String × Literal), pairsLegible ps = true →
    pairsLegible qs = true → (pairsJson ps).map Json.text = (pairsJson qs).map Json.text → ps = qs
  | [], [], _, _, _ => rfl
  | (k, l) :: ps, (k', m) :: qs, hp, hq, h => by
    rw [pairsLegible, Bool.and_eq_true] at hp hq
    obtain ⟨hpair, hrest⟩ := List.cons.inj h
    obtain ⟨hkey, hvalue⟩ := List.cons.inj (Json.text_array_inj hpair)
    rw [Json.text_string_iff.mp hkey, eq_of_text l m hp.1 hq.1 (List.cons.inj hvalue).1,
      pairs_eq_of_text ps qs hp.2 hq.2 hrest]
  | [], _ :: _, _, _, h => by cases h
  | _ :: _, [], _, _, h => by cases h

end

end Literal

namespace Condition

mutual

def isLegible : Condition → Bool
  | .compare _ _ l _ => l.isLegible
  | .oneOf _ ls | .noneOf _ ls | .all _ ls => Literal.itemsLegible ls
  | .null _ | .notNull _ => true
  | .between _ low high _ => low.isLegible && high.isLegible
  | .nested { clauses, .. } => clausesLegible clauses
  | .raw _ => false
termination_by structural c => c

def clausesLegible : List Clause → Bool
  | [] => true
  | ⟨_, condition⟩ :: rest => isLegible condition && clausesLegible rest
termination_by structural clauses => clauses

end

def type : Condition → String
  | .compare .. => "basic"
  | .oneOf .. => "in"
  | .noneOf .. => "not_in"
  | .null _ => "null"
  | .notNull _ => "not_null"
  | .between .. => "between"
  | .all .. => "all"
  | .nested _ => "nested"
  | .raw _ => "raw"

def fields : Condition → List (String × Json)
  | .compare column operator value negated => [Plan.columnField column,
      ("operator", .string operator), ("value", value.toJson), ("negate", .boolean negated)]
  | .oneOf column values | .noneOf column values | .all column values =>
    [Plan.columnField column, ("values", Plan.literalsJson values)]
  | .null column | .notNull column => [Plan.columnField column]
  | .between column low high negated => [Plan.columnField column, ("low", low.toJson),
      ("high", high.toJson), ("negate", .boolean negated)]
  | .nested plan => [("subplan", plan.toJson)]
  | .raw filter => [("native", filter.toJson)]

theorem toJson_eq (c : Condition) : c.toJson = Plan.conditionJson c.type c.fields := by
  cases c <;> rfl

theorem type_of_text {c d : Condition} (h : c.toJson.text = d.toJson.text) :
    c.type = d.type ∧ c.fields.map Json.fieldText = d.fields.map Json.fieldText := by
  rw [toJson_eq, toJson_eq] at h
  obtain ⟨htype, hfields⟩ := List.cons.inj (Json.text_object_inj h)
  exact ⟨Json.text_string_iff.mp (Prod.mk.inj htype).2, hfields⟩

theorem literals_eq_of_text {ls ms : List Literal} (hl : Literal.itemsLegible ls = true)
    (hm : Literal.itemsLegible ms = true)
    (h : (Plan.literalsJson ls).text = (Plan.literalsJson ms).text) : ls = ms := by
  have hitems (ls : List Literal) : Literal.itemsJson ls = ls.map Literal.toJson := by
    induction ls with
    | nil => rfl
    | cons l rest ih => rw [Literal.itemsJson, ih, List.map_cons]
  have htexts := Json.text_array_inj h
  rw [← hitems, ← hitems] at htexts
  exact Literal.items_eq_of_text ls ms hl hm htexts

theorem column_of_text {column column' : String} {fields fields' : List (String × Json)}
    (h : (Plan.columnField column :: fields).map Json.fieldText =
      (Plan.columnField column' :: fields').map Json.fieldText) : column = column' := by
  obtain ⟨hcolumn, -⟩ := List.cons.inj h
  exact Json.text_string_iff.mp (Prod.mk.inj hcolumn).2

theorem values_of_text {column column' : String} {ls ms : List Literal}
    (hl : Literal.itemsLegible ls = true) (hm : Literal.itemsLegible ms = true)
    (h : [Plan.columnField column, ("values", Plan.literalsJson ls)].map Json.fieldText =
      [Plan.columnField column', ("values", Plan.literalsJson ms)].map Json.fieldText) :
    column = column' ∧ ls = ms := by
  obtain ⟨-, hvalues⟩ := List.cons.inj h
  obtain ⟨hvalue, -⟩ := List.cons.inj hvalues
  exact ⟨column_of_text h, literals_eq_of_text hl hm (Prod.mk.inj hvalue).2⟩

end Condition

namespace Scope

variable (s : Settings)

mutual

theorem fragment_eq_of_text : ∀ c d : Condition, c.isLegible = true → d.isLegible = true →
    c.toJson.text = d.toJson.text → fragment s c = fragment s d
  | .compare column operator l negated, d, hc, hd, h => by
    obtain ⟨htype, hfields⟩ := Condition.type_of_text h
    cases d <;> simp [Condition.type] at htype
    case compare column' operator' m negated' =>
      simp only [Condition.fields, Plan.columnField, List.map_cons, Json.fieldText, List.cons.injEq,
        Prod.mk.injEq, Json.text_string_iff, true_and] at hfields
      obtain ⟨rfl, rfl, hvalue, hnegated, -⟩ := hfields
      rw [Literal.eq_of_text l m hc hd hvalue, Json.text_boolean_inj hnegated]
  | .oneOf column ls, d, hc, hd, h => by
    obtain ⟨htype, hfields⟩ := Condition.type_of_text h
    cases d <;> simp [Condition.type] at htype
    case oneOf column' ms =>
      obtain ⟨rfl, rfl⟩ := Condition.values_of_text hc hd hfields
      rfl
  | .noneOf column ls, d, hc, hd, h => by
    obtain ⟨htype, hfields⟩ := Condition.type_of_text h
    cases d <;> simp [Condition.type] at htype
    case noneOf column' ms =>
      obtain ⟨rfl, rfl⟩ := Condition.values_of_text hc hd hfields
      rfl
  | .all column ls, d, hc, hd, h => by
    obtain ⟨htype, hfields⟩ := Condition.type_of_text h
    cases d <;> simp [Condition.type] at htype
    case all column' ms =>
      obtain ⟨rfl, rfl⟩ := Condition.values_of_text hc hd hfields
      rfl
  | .null column, d, _, _, h => by
    obtain ⟨htype, hfields⟩ := Condition.type_of_text h
    cases d <;> simp [Condition.type] at htype
    case null column' =>
      rw [Condition.column_of_text hfields]
  | .notNull column, d, _, _, h => by
    obtain ⟨htype, hfields⟩ := Condition.type_of_text h
    cases d <;> simp [Condition.type] at htype
    case notNull column' =>
      rw [Condition.column_of_text hfields]
  | .between column low high negated, d, hc, hd, h => by
    obtain ⟨htype, hfields⟩ := Condition.type_of_text h
    cases d <;> simp [Condition.type] at htype
    case between column' low' high' negated' =>
      rw [Condition.isLegible, Bool.and_eq_true] at hc hd
      simp only [Condition.fields, Plan.columnField, List.map_cons, Json.fieldText, List.cons.injEq,
        Prod.mk.injEq, Json.text_string_iff, true_and] at hfields
      obtain ⟨rfl, hlow, hhigh, hnegated, -⟩ := hfields
      rw [Literal.eq_of_text low low' hc.1 hd.1 hlow, Literal.eq_of_text high high' hc.2 hd.2 hhigh,
        Json.text_boolean_inj hnegated]
  | .nested { clauses, .. }, d, hc, hd, h => by
    obtain ⟨htype, hfields⟩ := Condition.type_of_text h
    cases d <;> simp [Condition.type] at htype
    case nested plan =>
      obtain ⟨more⟩ := plan
      obtain ⟨hplan, -⟩ := List.cons.inj hfields
      -- Only the clauses of a plan in parentheses count.
      obtain ⟨hclauses, -⟩ := List.cons.inj (Json.text_object_inj (Prod.mk.inj hplan).2)
      have htexts := Json.text_array_inj (Prod.mk.inj hclauses).2
      rw [fragment, fragment, fragments_eq_of_text clauses more hc hd htexts]
  | .raw _, _, hc, _, _ => by cases hc

theorem fragments_eq_of_text : ∀ cs ds : List Clause, Condition.clausesLegible cs = true →
    Condition.clausesLegible ds = true →
    (Plan.clausesJson cs).map Json.text = (Plan.clausesJson ds).map Json.text →
    fragments s cs = fragments s ds
  | [], [], _, _, _ => rfl
  | ⟨join, c⟩ :: cs, ⟨join', d⟩ :: ds, hc, hd, h => by
    rw [Condition.clausesLegible, Bool.and_eq_true] at hc hd
    obtain ⟨hclause, hrest⟩ := List.cons.inj h
    have hfields := Json.text_object_inj hclause
    simp only [List.map_cons, Json.fieldText, List.cons.injEq, Prod.mk.injEq, Json.text_string_iff,
      true_and] at hfields
    obtain ⟨hjoin, hcondition, -⟩ := hfields
    obtain rfl : join = join' := by cases join <;> cases join' <;> simp [Join.text] at hjoin ⊢
    rw [fragments, fragments, fragment_eq_of_text c d hc.1 hd.1 hcondition,
      fragments_eq_of_text cs ds hc.2 hd.2 hrest]
  | [], _ :: _, _, _, h => by cases h
  | _ :: _, [], _, _, h => by cases h

end

end Scope

end RelDoc
