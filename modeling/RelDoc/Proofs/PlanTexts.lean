import RelDoc.Proofs.JsonReading
import RelDoc.Proofs.SharedShapes

namespace RelDoc

open Wire

namespace Wire

namespace Json

variable {α : Type} {read : Json → Option α} {write : α → Json}

theorem mapM_map {as : List α} (h : ∀ a ∈ as, read (write a) = some a) :
    (as.map write).mapM read = some as := by
  induction as with
  | nil => rfl
  | cons a rest ih =>
    obtain ⟨ha, hrest⟩ := List.forall_mem_cons.mp h
    rw [List.map_cons, List.mapM_cons, ha, ih hrest]
    rfl

theorem list?_map {as : List α} (h : ∀ a ∈ as, read (write a) = some a) :
    list? read (.array (as.map write)) = some as := mapM_map h

theorem list?_strings (ss : List String) : list? string? (strings ss) = some ss :=
  list?_map fun _ _ => rfl

theorem byte?_toNat (b : UInt8) : byte? (.integer b.toNat) = some b := by
  have hbound : (0 : ℤ) ≤ b.toNat ∧ (b.toNat : ℤ) ≤ 255 := by
    have := b.toNat_lt
    omega
  rw [byte?, integer?, if_pos hbound, Option.map_some, Int.toNat_natCast, UInt8.ofNat_toNat]

theorem list?_bytes (bs : List UInt8) : list? byte? (bytes bs) = some bs :=
  list?_map fun b _ => byte?_toNat b

theorem int64?_toInt (n : Int64) : int64? (.integer n.toInt) = some n := by
  rw [int64?, integer?, if_pos ⟨Int64.minValue_le_toInt n, Int64.toInt_le n⟩, Option.map_some,
    Int64.ofInt_toInt]

theorem word64?_wordJson (n : UInt64) : word64? (Plan.wordJson n) = some n := by
  have hbound : (0 : ℤ) ≤ n.toNat ∧ (n.toNat : ℤ) ≤ UInt64.size - 1 := by
    have := n.toNat_lt
    have hsize : UInt64.size = 2 ^ 64 := rfl
    omega
  rw [Plan.wordJson, word64?, integer?, if_pos hbound, Option.map_some, Int.toNat_natCast,
    UInt64.ofNat_toNat]

end Json

namespace Record

variable {α : Type} {read : Json → Option α} {write : α → Json} {r : Record} {name : String}

theorem read?_object {names : List String} {fields : List (String × Json)}
    (hfields : fields.map Prod.fst = names) (hnames : names.Nodup) :
    read? names (.object fields) = some fields := by
  have hknown : fields.filter (fun f => names.contains f.1) = fields := by
    apply List.filter_eq_self.mpr
    intro f hf
    rw [List.contains_iff_mem, ← hfields]
    exact List.mem_map_of_mem hf
  rw [read?, ofFields?, hknown, hfields, if_pos hnames]

theorem required?_eq {a : α} {j : Json} (hlookup : r.lookup name = some j)
    (hread : read j = some a) : r.required? name read = some a := by
  rw [required?, hlookup, Option.bind_some, hread]

theorem optional?_null (hlookup : r.lookup name = some .null) : r.optional? name read = some none := by
  rw [optional?, hlookup]

theorem optional?_some {j : Json} (hlookup : r.lookup name = some j) (hnull : j ≠ .null) :
    r.optional? name read = (read j).map some := by
  rw [optional?, hlookup]
  cases j with
  | null => exact absurd rfl hnull
  | _ => rfl

theorem optional?_ofOption {x : Option α} (hlookup : r.lookup name = some (.ofOption write x))
    (hnull : ∀ a, write a ≠ .null) (hread : ∀ a, read (write a) = some a) :
    r.optional? name read = some x := by
  rcases x with _ | a
  · exact optional?_null hlookup
  · rw [optional?_some hlookup (hnull a)]
    change (read (write a)).map some = _
    rw [hread, Option.map_some]

end Record

end Wire

namespace Wire.Json

theorem allExact_iff {items : List Json} : allExact items = true ↔ ∀ j ∈ items, j.isExact = true := by
  induction items with
  | nil => simp [allExact]
  | cons j rest ih => simp [allExact, ih]

theorem isExact_object {fields : List (String × Json)} :
    (object fields).isExact = true ↔ ∀ f ∈ fields, f.2.isExact = true := by
  rw [isExact]
  induction fields with
  | nil => simp [fieldsExact]
  | cons f rest ih => simp [fieldsExact, ih]

theorem isExact_map {α : Type} {write : α → Json} {as : List α}
    (h : ∀ a ∈ as, (write a).isExact = true) : (array (as.map write)).isExact = true := by
  rw [isExact, allExact_iff]
  simpa using h

theorem isExact_strings (ss : List String) : (strings ss).isExact = true :=
  isExact_map fun _ _ => rfl

theorem isExact_field (k : String) (j : Json) : (object [(k, j)]).isExact = j.isExact := by
  rw [isExact, fieldsExact, fieldsExact, Bool.and_true]

theorem isExact_int64 (n : Int64) : (integer n.toInt).isExact = true := by
  have hlow := Int64.minValue_le_toInt n
  have hlt := Int64.toInt_lt n
  have hsize : UInt64.size = 2 ^ 64 := rfl
  exact isExact_integer.mpr ⟨hlow, by omega⟩

theorem isExact_natCast {n : ℕ} (h : n < UInt64.size) : (integer n).isExact = true := by
  have hmin : Int64.minValue.toInt = -9223372036854775808 := rfl
  exact isExact_integer.mpr ⟨by omega, by omega⟩

theorem isExact_bytes (bs : List UInt8) : (bytes bs).isExact = true :=
  isExact_map fun b _ => isExact_natCast (lt_trans b.toNat_lt (by decide))

theorem isExact_ofOption {α : Type} {write : α → Json} (h : ∀ a, (write a).isExact = true)
    (x : Option α) : (ofOption write x).isExact = true := by
  rcases x with _ | a
  · rfl
  · exact h a

mutual

theorem isUsable_of_isExact : ∀ j : Json, j.isExact = true → j.isUsable = true
  | .null, _ | .boolean _, _ | .integer _, _ | .string _, _ => rfl
  | .array items, h => allUsable_of_allExact items h
  | .object fields, h => fieldsUsable_of_fieldsExact fields h
  | .double _, _ => rfl

theorem allUsable_of_allExact : ∀ items : List Json, allExact items = true → allUsable items = true
  | [], _ => rfl
  | j :: rest, h => by
    rw [allExact, Bool.and_eq_true] at h
    rw [allUsable, isUsable_of_isExact j h.1, allUsable_of_allExact rest h.2]
    rfl

theorem fieldsUsable_of_fieldsExact : ∀ fields : List (String × Json), fieldsExact fields = true →
    fieldsUsable fields = true
  | [], _ => rfl
  | (_, j) :: rest, h => by
    rw [fieldsExact, Bool.and_eq_true] at h
    rw [fieldsUsable, isUsable_of_isExact j h.1, fieldsUsable_of_fieldsExact rest h.2]
    rfl

end

end Wire.Json

namespace Literal

mutual

def isPlain : Literal → Bool
  | .null | .boolean _ | .integer _ | .string _ | .bytes _ => true
  | .array items => itemsPlain items
  | .map pairs => pairsPlain pairs
  | .float _ | .instant _ | .native _ => false
termination_by structural l => l

def itemsPlain : List Literal → Bool
  | [] => true
  | l :: rest => isPlain l && itemsPlain rest
termination_by structural items => items

def pairsPlain : List (String × Literal) → Bool
  | [] => true
  | (_, l) :: rest => isPlain l && pairsPlain rest
termination_by structural pairs => pairs

end

theorem itemsPlain_iff {ls : List Literal} : itemsPlain ls = true ↔ ∀ l ∈ ls, l.isPlain = true := by
  induction ls with
  | nil => simp [itemsPlain]
  | cons l rest ih => simp [itemsPlain, ih]

mutual

theorem isExact_toJson : ∀ l : Literal, l.isPlain = true → l.toJson.isExact = true
  | .null, _ | .boolean _, _ | .string _, _ => rfl
  | .integer n, _ => by rw [toJson, Json.isExact_field, Json.isExact_int64]
  | .bytes bs, _ => by rw [toJson, Json.isExact_field, Json.isExact_bytes]
  | .array items, h => by
    rw [toJson, Json.isExact_field, Json.isExact, allExact_itemsJson items h]
  | .map pairs, h => by
    rw [toJson, Json.isExact_field, Json.isExact, allExact_pairsJson pairs h]
  | .float _, h | .instant _, h | .native _, h => by cases h

theorem allExact_itemsJson : ∀ items : List Literal, itemsPlain items = true →
    Json.allExact (itemsJson items) = true
  | [], _ => rfl
  | l :: rest, h => by
    rw [itemsPlain, Bool.and_eq_true] at h
    rw [itemsJson, Json.allExact, isExact_toJson l h.1, allExact_itemsJson rest h.2]
    rfl

theorem allExact_pairsJson : ∀ pairs : List (String × Literal), pairsPlain pairs = true →
    Json.allExact (pairsJson pairs) = true
  | [], _ => rfl
  | (k, l) :: rest, h => by
    rw [pairsPlain, Bool.and_eq_true] at h
    simp [pairsJson, Json.allExact, Json.isExact, isExact_toJson l h.1,
      allExact_pairsJson rest h.2]

end

mutual

theorem ofJson?_toJson : ∀ l : Literal, l.isPlain = true → ofJson? l.toJson = some l
  | .null, _ => by rw [toJson, ofJson?, if_pos rfl]
  | .boolean _, _ | .string _, _ => rfl
  | .integer n, _ => by
    change (Json.int64? (.integer n.toInt)).map integer = _
    rw [Json.int64?_toInt, Option.map_some]
  | .bytes bs, _ => by
    change ((Json.bytes bs).list? Json.byte?).map bytes = _
    rw [Json.list?_bytes, Option.map_some]
  | .array items, h => by
    change (itemsOf? (itemsJson items)).map array = _
    rw [itemsOf?_itemsJson items h, Option.map_some]
  | .map pairs, h => by
    change (pairsOf? (pairsJson pairs)).map map = _
    rw [pairsOf?_pairsJson pairs h, Option.map_some]
  | .float _, h | .instant _, h | .native _, h => by cases h

theorem itemsOf?_itemsJson : ∀ items : List Literal, itemsPlain items = true →
    itemsOf? (itemsJson items) = some items
  | [], _ => rfl
  | l :: rest, h => by
    rw [itemsPlain, Bool.and_eq_true] at h
    rw [itemsJson, itemsOf?, ofJson?_toJson l h.1, itemsOf?_itemsJson rest h.2]
    rfl

theorem pairsOf?_pairsJson : ∀ pairs : List (String × Literal), pairsPlain pairs = true →
    pairsOf? (pairsJson pairs) = some pairs
  | [], _ => rfl
  | (k, l) :: rest, h => by
    rw [pairsPlain, Bool.and_eq_true] at h
    rw [pairsJson, pairsOf?, ofJson?_toJson l h.1, pairsOf?_pairsJson rest h.2]
    rfl

end

end Literal

mutual

def Condition.isPlain : Condition → Bool
  | .compare _ _ l _ => l.isPlain
  | .oneOf _ ls | .noneOf _ ls | .all _ ls => Literal.itemsPlain ls
  | .null _ | .notNull _ => true
  | .between _ low high _ => low.isPlain && high.isPlain
  | .nested plan => plan.isPlain
  | .raw _ => false
termination_by structural c => c

def Plan.clausesPlain : List Clause → Bool
  | [] => true
  | ⟨_, condition⟩ :: rest => condition.isPlain && Plan.clausesPlain rest
termination_by structural clauses => clauses

/-- Is a plan, down to the plans in its parentheses, built from such conditions, without a
projection, a hint and other options? -/
def Plan.isPlain : Plan → Bool
  | { clauses, projection, hint, options, .. } =>
    Plan.clausesPlain clauses && projection.isNone && hint.isNone && options.isEmpty
termination_by structural p => p

end

namespace Plan

theorem isPlain_iff {p : Plan} : p.isPlain = true ↔
    clausesPlain p.clauses = true ∧ p.projection = none ∧ p.hint = none ∧ p.options = [] := by
  cases p
  simp [isPlain, and_assoc]

theorem isExact_literalsJson {ls : List Literal} (h : Literal.itemsPlain ls = true) :
    (literalsJson ls).isExact = true :=
  Json.isExact_map fun l hl => l.isExact_toJson (Literal.itemsPlain_iff.mp h l hl)

theorem isExact_wordJson (n : UInt64) : (wordJson n).isExact = true :=
  Json.isExact_natCast n.toNat_lt

theorem isExact_aggregate (a : Aggregate) : a.toJson.isExact = true := by
  simp [Aggregate.toJson, Json.isExact, Json.fieldsExact, Json.isExact_strings]

theorem isExact_orders (orders : List (String × Direction)) :
    (Json.array (orders.map orderJson)).isExact = true := Json.isExact_map fun _ _ => rfl

theorem isExact_fieldsJson {p : Plan} (hp : p.isPlain = true) {clauses : Json}
    (hclauses : clauses.isExact = true) : (Json.object (fieldsJson clauses p)).isExact = true := by
  obtain ⟨-, hprojection, hhint, hoptions⟩ := isPlain_iff.mp hp
  have hprojection : (Json.ofOption Document.toJson p.projection).isExact = true := by
    rw [hprojection]
    rfl
  have hhint : (Json.ofOption Value.toJson p.hint).isExact = true := by
    rw [hhint]
    rfl
  have hoptions : p.options.toJson.isExact = true := by
    rw [hoptions]
    rfl
  have hdistinct : (Json.boolean p.distinct).isExact = true := rfl
  rw [Json.isExact_object]
  simp [fieldsJson, hclauses, hprojection, hhint, hoptions, hdistinct, Json.isExact_strings,
    isExact_orders, Json.isExact_ofOption isExact_aggregate, Json.isExact_ofOption isExact_wordJson]

end Plan

theorem Condition.isExact_of_fields {c : Condition} (h : ∀ f ∈ c.fields, f.2.isExact = true) :
    c.toJson.isExact = true := by
  rw [toJson_eq, Plan.conditionJson, Json.isExact_object, List.forall_mem_cons]
  exact ⟨rfl, h⟩

mutual

theorem Condition.isExact_toJson : ∀ c : Condition, c.isPlain = true → c.toJson.isExact = true
  | .compare _ _ l _, h => Condition.isExact_of_fields (by
      simp [Condition.fields, Plan.columnField, Json.isExact, l.isExact_toJson h])
  | .oneOf _ ls, h | .noneOf _ ls, h | .all _ ls, h => Condition.isExact_of_fields (by
      simp [Condition.fields, Plan.columnField, Json.isExact, Plan.isExact_literalsJson h])
  | .null _, _ | .notNull _, _ => rfl
  | .between _ low high _, h => Condition.isExact_of_fields (by
      rw [Condition.isPlain, Bool.and_eq_true] at h
      simp [Condition.fields, Plan.columnField, Json.isExact, low.isExact_toJson h.1,
        high.isExact_toJson h.2])
  | .nested plan, h => Condition.isExact_of_fields (by
      simp [Condition.fields, plan.isExact_toJson h])
  | .raw _, h => by cases h

theorem Plan.allExact_clausesJson : ∀ clauses : List Clause, Plan.clausesPlain clauses = true →
    Json.allExact (Plan.clausesJson clauses) = true
  | [], _ => rfl
  | ⟨join, c⟩ :: rest, h => by
    rw [Plan.clausesPlain, Bool.and_eq_true] at h
    simp [Plan.clausesJson, Clause.toJson, Json.isExact, Json.allExact, Json.fieldsExact,
      c.isExact_toJson h.1, Plan.allExact_clausesJson rest h.2]

theorem Plan.isExact_toJson : ∀ p : Plan, p.isPlain = true → p.toJson.isExact = true
  | { clauses, .. }, h => by
    rw [Plan.toJson_eq]
    exact Plan.isExact_fieldsJson h (Plan.allExact_clausesJson clauses (Plan.isPlain_iff.mp h).1)

end

namespace Plan

theorem tagged?_conditionJson {type : String} {fields : List (String × Json)}
    (h : ∀ f ∈ fields, f.1 ≠ "type") :
    tagged? (conditionJson type fields) = some (type, .object fields) := by
  have hnone : fields.filter (fun f => f.1 = "type") = [] :=
    List.filter_eq_nil_iff.mpr fun f hf => by simpa using h f hf
  have hall : fields.filter (fun f => f.1 ≠ "type") = fields :=
    List.filter_eq_self.mpr fun f hf => by simpa using h f hf
  rw [conditionJson, tagged?, List.filter_cons_of_pos (by simp), hnone,
    List.filter_cons_of_neg (by simp), hall]

theorem list?_literalsJson {ls : List Literal} (h : Literal.itemsPlain ls = true) :
    (literalsJson ls).list? Literal.ofJson? = some ls :=
  Json.list?_map fun l hl => l.ofJson?_toJson (Literal.itemsPlain_iff.mp h l hl)

theorem nodup_fields (c : Condition) : (c.fields.map Prod.fst).Nodup := by
  cases c <;> simp [Condition.fields, columnField]

theorem simpleCondition?_fields {c : Condition} (hc : c.isPlain = true)
    (hnested : ∀ p, c ≠ .nested p) : simpleCondition? c.type (.object c.fields) = some c := by
  have hread := Record.read?_object rfl (nodup_fields c)
  cases c <;> simp only [Condition.fields, columnField, List.map_cons, List.map_nil] at hread
  case compare column operator l negated =>
    simp [simpleCondition?, Condition.type, Condition.fields, columnField, hread, Record.required?,
      List.lookup, Json.string?, Json.boolean?, l.ofJson?_toJson hc]
  case oneOf column ls | noneOf column ls | all column ls =>
    simp [simpleCondition?, Condition.type, Condition.fields, columnField, hread, Record.required?,
      List.lookup, Json.string?, list?_literalsJson hc]
  case null column | notNull column =>
    simp [simpleCondition?, Condition.type, Condition.fields, columnField, hread, Record.required?,
      List.lookup, Json.string?]
  case between column low high negated =>
    rw [Condition.isPlain, Bool.and_eq_true] at hc
    simp [simpleCondition?, Condition.type, Condition.fields, columnField, hread, Record.required?,
      List.lookup, Json.string?, Json.boolean?, low.ofJson?_toJson hc.1, high.ofJson?_toJson hc.2]
  case nested plan => exact absurd rfl (hnested plan)
  case raw filter => cases hc

theorem tagged?_toJson (c : Condition) : tagged? c.toJson = some (c.type, .object c.fields) := by
  have hfields : ∀ f ∈ c.fields, f.1 ≠ "type" := by
    cases c <;> simp [Condition.fields, columnField]
  rw [Condition.toJson_eq, tagged?_conditionJson hfields]

variable {readPlan : Json → Option Plan}

theorem condition?_toJson {c : Condition} (hc : c.isPlain = true)
    (hnested : ∀ p, c = .nested p → readPlan p.toJson = some p) :
    condition? readPlan c.toJson = some c := by
  rw [condition?, if_pos (Json.isUsable_of_isExact _ (c.isExact_toJson hc)), tagged?_toJson]
  by_cases hplan : ∃ p, c = .nested p
  · obtain ⟨p, rfl⟩ := hplan
    have hread : Record.read? ["subplan"] (.object [("subplan", p.toJson)]) =
        some [("subplan", p.toJson)] := Record.read?_object rfl (by decide)
    change ((Record.read? ["subplan"] (.object [("subplan", p.toJson)])).bind fun r =>
      (r.required? "subplan" readPlan).map Condition.nested) = _
    rw [hread, Option.bind_some, Record.required?_eq (by simp [List.lookup]) (hnested p rfl),
      Option.map_some]
  · have hsimple : c.type ≠ "nested" := by
      cases c with
      | nested p => exact absurd ⟨p, rfl⟩ hplan
      | _ => simp [Condition.type]
    split
    case h_1 rest h => exact absurd (Prod.mk.inj (Option.some.inj h)).1 hsimple
    case h_2 type rest _ h =>
      obtain ⟨rfl, rfl⟩ := Prod.mk.inj (Option.some.inj h)
      exact simpleCondition?_fields hc fun p h => hplan ⟨p, h⟩
    case h_3 h => cases h

theorem join?_text (j : Join) : Join.ofJson? (.string j.text) = some j := by
  cases j <;> rfl

theorem clause?_toJson {c : Clause} (hcondition : condition? readPlan c.condition.toJson =
    some c.condition) : clause? readPlan c.toJson = some c := by
  rcases c with ⟨join, condition⟩
  have hread : Record.read? ["boolean", "kind"] (Clause.toJson ⟨join, condition⟩) =
      some [("boolean", .string join.text), ("kind", condition.toJson)] :=
    Record.read?_object rfl (by decide)
  rw [clause?, hread]
  simp [Record.required?, List.lookup, join?_text, hcondition]

theorem order?_orderJson (order : String × Direction) : order? (orderJson order) = some order := by
  rcases order with ⟨column, direction⟩
  cases direction <;> rfl

theorem aggregate?_toJson (a : Aggregate) : Aggregate.ofJson? a.toJson = some a := by
  rcases a with ⟨function, columns⟩
  have hread : Record.read? ["function", "columns"] (Aggregate.toJson ⟨function, columns⟩) =
      some [("function", .string function.text), ("columns", .strings columns)] :=
    Record.read?_object rfl (by decide)
  have hfunction : (Json.string function.text).name?.bind Aggregate.functionOf? =
      some function := by
    cases function <;> rfl
  rw [Aggregate.ofJson?, hread]
  simp [Record.required?, List.lookup, hfunction, Json.list?_strings]

theorem optional?_word {r : Record} {name : String} {x : Option UInt64}
    (h : r.lookup name = some (.ofOption wordJson x)) : r.optional? name Json.word64? = some x :=
  Record.optional?_ofOption h (fun n h => by cases h) Json.word64?_wordJson

theorem ofRecord?_fieldsJson {p : Plan} (hp : p.isPlain = true)
    (hread : (Json.array (clausesJson p.clauses)).list? (clause? readPlan) = some p.clauses) :
    ofRecord? readPlan (fieldsJson (.array (clausesJson p.clauses)) p) = some p := by
  obtain ⟨-, hprojection, hhint, hoptions⟩ := isPlain_iff.mp hp
  generalize hr : fieldsJson (.array (clausesJson p.clauses)) p = r
  have hclauses : Record.required? r "clauses" (Json.list? (clause? readPlan)) = some p.clauses :=
    Record.required?_eq (by rw [← hr]; rfl) hread
  have hcolumns : Record.required? r "columns" (Json.list? Json.string?) = some p.columns :=
    Record.required?_eq (by rw [← hr]; rfl) (Json.list?_strings p.columns)
  have hprojection : Record.optional? r "projection" Document.ofJson? = some p.projection := by
    rw [hprojection]
    exact Record.optional?_null (by rw [← hr, fieldsJson, hprojection]; rfl)
  have horders : Record.required? r "orders" (Json.list? order?) = some p.orders :=
    Record.required?_eq (by rw [← hr]; rfl) (Json.list?_map fun o _ => order?_orderJson o)
  have hgroups : Record.required? r "groups" (Json.list? Json.string?) = some p.groups :=
    Record.required?_eq (by rw [← hr]; rfl) (Json.list?_strings p.groups)
  have haggregate : Record.optional? r "aggregate" Aggregate.ofJson? = some p.aggregate :=
    Record.optional?_ofOption (by rw [← hr]; rfl) (fun a h => by cases h) aggregate?_toJson
  have hdistinct : Record.required? r "distinct" Json.boolean? = some p.distinct :=
    Record.required?_eq (by rw [← hr]; rfl) rfl
  have hskip : Record.optional? r "skip" Json.word64? = some p.skip :=
    optional?_word (by rw [← hr]; rfl)
  have hlimit : Record.optional? r "limit" Json.word64? = some p.limit :=
    optional?_word (by rw [← hr]; rfl)
  have htimeout : Record.optional? r "timeout_ms" Json.word64? = some p.timeout :=
    optional?_word (by rw [← hr]; rfl)
  have hhint : Record.optional? r "hint" Value.ofJson? = some p.hint := by
    rw [hhint]
    exact Record.optional?_null (by rw [← hr, fieldsJson, hhint]; rfl)
  have hoptions : Record.required? r "options" Document.ofJson? = some p.options := by
    rw [hoptions]
    exact Record.required?_eq (by rw [← hr, fieldsJson, hoptions]; rfl) rfl
  rw [ofRecord?, hclauses, hcolumns, hprojection, horders, hgroups, haggregate, hdistinct, hskip,
    hlimit, htimeout, hhint, hoptions]
  cases p
  rfl

theorem ofNested?_succ {p : Plan} (hp : p.isPlain = true) {n : ℕ}
    (hread : (clausesJson p.clauses).mapM (clause? (ofNested? n)) = some p.clauses) :
    ofNested? (n + 1) p.toJson = some p := by
  have hfields : Record.read? fieldNames p.toJson =
      some (fieldsJson (.array (clausesJson p.clauses)) p) := by
    rw [toJson_eq]
    exact Record.read?_object rfl (by decide)
  rw [ofNested?, hfields, Option.bind_some]
  exact ofRecord?_fieldsJson hp hread

end Plan

theorem Plan.depth_clauses (p : Plan) :
    Json.itemsDepth (Plan.clausesJson p.clauses) + 2 ≤ p.toJson.depth := by
  rw [Plan.toJson_eq, Json.depth, Plan.fieldsJson, Json.fieldsDepth, Json.depth]
  omega

theorem Clause.depth_condition (c : Clause) : c.condition.toJson.depth + 1 ≤ c.toJson.depth := by
  rcases c with ⟨join, condition⟩
  rw [Clause.toJson, Json.depth, Json.fieldsDepth, Json.fieldsDepth]
  dsimp only
  omega

theorem Condition.depth_nested (p : Plan) : p.toJson.depth ≤ (Condition.nested p).toJson.depth := by
  rw [Condition.toJson_eq, Plan.conditionJson, Json.depth, Condition.fields, Json.fieldsDepth,
    Json.fieldsDepth]
  omega

mutual

theorem Plan.condition?_ofNested : ∀ (c : Condition) (n : ℕ), c.isPlain = true → c.toJson.depth ≤ n →
    Plan.condition? (Plan.ofNested? n) c.toJson = some c
  | .nested plan, n, hc, hn => by
    have hplan := Plan.ofNested?_toJson plan n hc (le_trans (Condition.depth_nested plan) hn)
    apply Plan.condition?_toJson hc
    rintro p h
    rwa [← Condition.nested.inj h]
  | .compare .., n, hc, _ | .oneOf .., n, hc, _ | .noneOf .., n, hc, _ | .null _, n, hc, _
  | .notNull _, n, hc, _ | .between .., n, hc, _ | .all .., n, hc, _ | .raw _, n, hc, _ =>
    Plan.condition?_toJson hc (fun p h => by cases h)

theorem Plan.clauses_ofNested : ∀ (clauses : List Clause) (n : ℕ), Plan.clausesPlain clauses = true →
    Json.itemsDepth (Plan.clausesJson clauses) ≤ n →
    (Plan.clausesJson clauses).mapM (Plan.clause? (Plan.ofNested? n)) = some clauses
  | [], _, _, _ => rfl
  | ⟨join, c⟩ :: rest, n, hc, hn => by
    rw [Plan.clausesPlain, Bool.and_eq_true] at hc
    rw [Plan.clausesJson, Json.itemsDepth] at hn
    have hdepth := Clause.depth_condition ⟨join, c⟩
    have hcondition := Plan.condition?_ofNested c n hc.1 (by dsimp only at hdepth; omega)
    rw [Plan.clausesJson, List.mapM_cons, Plan.clause?_toJson hcondition,
      Plan.clauses_ofNested rest n hc.2 (by omega)]
    rfl

theorem Plan.ofNested?_toJson : ∀ (p : Plan) (n : ℕ), p.isPlain = true → p.toJson.depth ≤ n →
    Plan.ofNested? n p.toJson = some p
  | { clauses, .. }, n, hp, hn => by
    have hdepth := le_trans (Plan.depth_clauses _) hn
    obtain ⟨m, rfl⟩ : ∃ m, n = m + 1 := ⟨n - 1, by omega⟩
    have hclauses := Plan.clauses_ofNested clauses m (Plan.isPlain_iff.mp hp).1
      (by dsimp only at hdepth; omega)
    exact Plan.ofNested?_succ hp hclauses

end

namespace Plan

theorem parse_text {p : Plan} (hp : p.isPlain = true) (hdepth : p.toJson.depth ≤ maxDepth) :
    parse p.text = .ok p := by
  have hjson : Json.parse? p.text.toList = some p.toJson := by
    rw [text, String.toList_ofList]
    exact Json.parse?_text (isExact_toJson p hp) hdepth
  have hplan : ofJson? p.toJson = some p := ofNested?_toJson p maxDepth hp hdepth
  rw [parse, hjson, Option.bind_some, hplan]

theorem clauses_eq_of_text {p q : Plan} (hp : p.isPlain = true) (hq : q.isPlain = true)
    (h : (clausesJson p.clauses).map Json.text = (clausesJson q.clauses).map Json.text) :
    p.clauses = q.clauses := by
  have hplain {p : Plan} (hp : p.isPlain = true) : clausesPlain p.clauses = true :=
    (isPlain_iff.mp hp).1
  have hread {p : Plan} (hp : p.isPlain = true) :=
    clauses_ofNested p.clauses _ (hplain hp) le_rfl
  have hjson : clausesJson p.clauses = clausesJson q.clauses :=
    Json.items_eq_of_text _ _ (allExact_clausesJson _ (hplain hp))
      (allExact_clausesJson _ (hplain hq)) h
  have hclauses := hread hp
  rw [hjson, hread hq] at hclauses
  exact (Option.some.inj hclauses).symm

/-- A plan that is not nested too deeply is read back from its text. Plans whose shapes have the same
text agree on all that goes into a shape, however deep they are. -/
theorem text_round_trip (p : Plan) (hp : p.isPlain = true) :
    (p.toJson.depth ≤ maxDepth → parse p.text = .ok p) ∧
      ∀ q : Plan, q.isPlain = true → ∀ nameSpace nameSpace' : String,
        (p.shape nameSpace).text = (q.shape nameSpace').text →
        nameSpace = nameSpace' ∧ p.clauses = q.clauses ∧ p.columns = q.columns ∧
          p.groups = q.groups ∧ p.orders = q.orders ∧ p.skip = q.skip ∧ p.limit = q.limit ∧
          p.aggregate = q.aggregate := by
  refine ⟨parse_text hp, ?_⟩
  intro q hq nameSpace nameSpace' h
  have htexts := Json.text_array_inj h
  simp only [List.map_cons, List.cons.injEq, and_true] at htexts
  obtain ⟨hname, hclauses, hcolumns, hgroups, horders, hskip, hlimit, haggregate⟩ := htexts
  exact ⟨Json.text_string_iff.mp hname, clauses_eq_of_text hp hq (Json.text_array_inj hclauses),
    Json.text_strings_inj hcolumns, Json.text_strings_inj hgroups,
    Json.text_list_inj text_orderJson_inj horders, text_words_inj hskip, text_words_inj hlimit,
    Json.text_ofOption_inj (fun a h => by cases h) text_aggregate_inj haggregate⟩

def quotedNotes : Plan where
  clauses :=
    [⟨.and, .nested { Plan.empty with
        clauses := [⟨.and, .compare "note" "=" (.string "say \"hi\"\n\\ \x01") true⟩,
          ⟨.or, .oneOf "tags" [.map [("a\tb", .array [.null, .boolean true, .bytes [0, 255]])]]⟩]
        limit := some 1 }⟩,
      ⟨.or, .between "age" (.integer (-9223372036854775808)) (.integer 7) false⟩]
  columns := ["*", "é"]
  projection := none
  orders := [("age", .descending)]
  groups := ["age"]
  aggregate := some ⟨.count, ["*"]⟩
  distinct := true
  skip := some 18446744073709551615
  limit := none
  timeout := some 0
  hint := none
  options := []

theorem text_round_trip_quotedNotes : quotedNotes.isPlain = true ∧
    parse quotedNotes.text = .ok quotedNotes ∧
      ∀ skip, (quotedNotes.shape "notes").text = ({ quotedNotes with skip }.shape "notes").text →
        some 18446744073709551615 = skip := by
  have hplain : quotedNotes.isPlain = true := rfl
  have hdepth : quotedNotes.toJson.depth ≤ maxDepth := Nat.le_of_ble_eq_true rfl
  obtain ⟨hparse, hshape⟩ := text_round_trip quotedNotes hplain
  refine ⟨hplain, hparse hdepth, fun skip h => ?_⟩
  obtain ⟨-, -, -, -, -, hskip, -, -⟩ := hshape { quotedNotes with skip } rfl _ _ h
  exact hskip

end Plan

end RelDoc
