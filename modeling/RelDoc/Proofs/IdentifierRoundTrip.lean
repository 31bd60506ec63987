import RelDoc.Proofs.ConfinedRequests
import RelDoc.Proofs.LooseEquality

namespace RelDoc

def Literal.isKey : Literal → Bool
  | .boolean _ | .integer _ | .string _ | .bytes _ => true
  | _ => false

namespace Value

def isKey : Value → Bool
  | .boolean _ | .int32 _ | .int64 _ | .string _ | .binary _ _ | .objectId _ => true
  | _ => false

theorem isKey_toValue {l : Literal} (h : l.isKey = true) : l.toValue.isKey = true := by
  cases l with
  | integer n => rw [Literal.toValue, ofInt64]; split <;> rfl
  | _ => first | rfl | simp [Literal.isKey] at h

theorem looseEq_self_of_isKey {v : Value} (h : v.isKey = true) : v.looseEq v = true := by
  cases v <;> first
    | simp [looseEq, numeric?, structEq, Decimal.nearest_beq_self]; done
    | simp [isKey] at h

theorem looseEq_string {v : Value} {s : String} (h : v.looseEq (.string s) = true) :
    v = .string s := by
  cases v <;> simp_all [looseEq, numeric?, structEq]

end Value

namespace Document

theorem get?_toValue_map (pairs : List (String × Literal)) (key : String) :
    (ofFields (Literal.fieldValues pairs)).get? key =
      (pairs.reverse.lookup key).map Literal.toValue := by
  rw [ofFields, get?_merge, Literal.fieldValues_eq_map, ← List.map_reverse]
  induction pairs.reverse with
  | nil => rfl
  | cons pair rest ih =>
    obtain ⟨k, l⟩ := pair
    simp only [List.map_cons, List.lookup_cons]
    cases key == k with
    | true => rfl
    | false => exact ih

def hasId (k : Value) (d : Document) : Bool := (d.get? "_id").any (·.looseEq k)

def listsId (k : Value) (d : Document) : Bool :=
  match d.get? "_id" with
  | some (.array items) => items.any (·.looseEq k)
  | _ => false

def identified (k : Value) (d : Document) : Bool := hasId k d || listsId k d

end Document

open Document

variable {k : Value}

theorem Filter.holds_id (hk : k.isKey = true) (d : Document) :
    holds d [("_id", k)] = .ok (identified k d) := by
  have hlookup : d.lookup "_id" = (d.get? "_id").toList := by
    change (((d.get? "_id").toList).flatMap fun v => [v]) = _
    rw [List.flatMap_singleton']
  rw [holds_column d (by decide), hlookup, identified, hasId, listsId]
  cases k <;> simp only [Value.isKey, Bool.false_eq_true] at hk <;>
    rcases d.get? "_id" with _ | v <;>
      first | rfl | (cases v <;> simp [conditionHolds, equalsAny, anyValue])

theorem Filter.evaluates_id (hk : k.isKey = true) (d : Document) : Evaluates d [("_id", k)] :=
  ⟨_, holds_id hk d⟩

theorem Filter.filter_passes_id (hk : k.isKey = true) (docs : List Document) :
    docs.filter (passes · [("_id", k)]) = docs.filter (identified k) :=
  List.filter_congr fun d _ => passes_of_holds d (holds_id hk d)

namespace Query

variable {m : Metered} {l : Literal} {options : Document}

theorem run_find (hk : (Identifier.normalize l).isKey = true) (honline : m.collection.online = true) :
    (((⟨.empty, .standard, options⟩ : Query).find l).run m).1 =
      .ok (m.collection.documents.find? (identified (Identifier.normalize l))) := by
  have hselect := Filter.select_eq_ok.mpr
    ⟨fun d (_ : d ∈ m.collection.documents) => Filter.evaluates_id hk d, rfl⟩
  rw [Filter.filter_passes_id hk] at hselect
  change ((((Request.issue (.find [("_id", Identifier.normalize l)] [("limit", .int64 1),
    ("typeMap", .document Settings.standard.typeMap)]) .documents).map ResultSet.rows).map
      List.head?).run m).1 = _
  rw [Request.run_map, Request.run_map, Request.run_issue, Collection.run, if_pos honline,
    Collection.perform_find, hselect]
  change Except.ok (((m.collection.documents.filter _).take 1).head?) = _
  rw [List.head?_take, if_neg Nat.one_ne_zero, List.head?_filter]

theorem run_deleteId (hk : (Identifier.normalize l).isKey = true)
    (honline : m.collection.online = true) (hack : m.collection.acknowledged = true) :
    (((⟨.empty, .standard, options⟩ : Query).deleteId l).run m).1 =
      .ok (m.collection.documents.filter (identified (Identifier.normalize l))).length := by
  have hpartition := Filter.partition_eq_ok.mpr
    ⟨fun d (_ : d ∈ m.collection.documents) => Filter.evaluates_id hk d, rfl⟩
  rw [Filter.filter_passes_id hk] at hpartition
  change ((Request.issue (.delete [("_id", Identifier.normalize l)]) deletedOf).run m).1 = _
  rw [Request.run_issue, Collection.run, if_pos honline, Collection.perform, Collection.deleteMany,
    hpartition, hack]
  rfl

theorem run_insertGetId {d : Document} (hrow : row l = .ok d) (honline : m.collection.online = true)
    (hack : m.collection.acknowledged = true) : ∃ stored id m',
      (insertGetId l).run m = (.ok (some id), m') ∧
      m'.collection.documents = m.collection.documents ++ [stored] ∧
      m'.collection.online = true ∧ m'.collection.acknowledged = true ∧
      stored.get? "_id" = some id ∧ (d.get? "_id" = some id ∨ ∃ o, id = .objectId o) := by
  obtain ⟨stored, id, handedOut, hstore, hstored, hid⟩ := m.collection.store_eq d
  refine ⟨stored, id, ⟨{ m.collection with
    documents := m.collection.documents ++ [stored], handedOut := handedOut },
    m.statistics.record (.insertOne d) true⟩, ?_, rfl, honline, hack, hstored, hid⟩
  rw [insertGetId, hrow, Request.after, Request.run_issue, Metered.run, Collection.run, if_pos honline,
    Collection.perform, hstore]
  simp only [hack]
  rfl

end Query

def Identifier.Reclassified (id : Value) : Prop :=
  ∃ s, id = .string s ∧ ((ObjectId.ofHex? s.toList).isSome = true ∨ isUuid (utf8 s) = true)

theorem Identifier.normalize_of_not_reclassified {id : Value} (h : ¬Reclassified id) :
    normalize (.native id) = id := by
  cases id with
  | string s =>
    have hhex : ObjectId.ofHex? s.toList = none := by
      by_contra hne
      exact h ⟨s, rfl, Or.inl (Option.isSome_iff_ne_none.mpr hne)⟩
    have huuid : isUuid (utf8 s) = false := by
      by_contra hne
      exact h ⟨s, rfl, Or.inr (by simpa using hne)⟩
    simp [normalize, ofString, hhex, huuid]
  | _ => rfl

theorem Identifier.normalize_of_reclassified {id : Value} (h : Reclassified id) :
    (∃ o, normalize (.native id) = .objectId o) ∨ ∃ bytes, normalize (.native id) = .binary 4 bytes := by
  obtain ⟨s, rfl, hs⟩ := h
  rw [normalize, ofString]
  rcases hhex : ObjectId.ofHex? s.toList with _ | o
  · rw [hhex] at hs
    exact Or.inr ⟨utf8 s, if_pos (hs.resolve_left (by simp))⟩
  · exact Or.inl ⟨o, rfl⟩

/-- A list that contains the identifier is met before every document that has it. -/
def Collection.Shadowed (docs : List Document) (id : Value) : Prop :=
  ∃ before d after, docs = before ++ d :: after ∧ listsId id d = true ∧
    ∀ e ∈ before, hasId id e = false

theorem Collection.shadowed_cons (d : Document) (docs : List Document) (id : Value) :
    Shadowed (d :: docs) id ↔ listsId id d = true ∨ hasId id d = false ∧ Shadowed docs id := by
  constructor
  · rintro ⟨_ | ⟨e, before⟩, f, after, h, hf, hbefore⟩
    · obtain ⟨rfl, -⟩ := List.cons.inj h
      exact Or.inl hf
    · obtain ⟨rfl, rfl⟩ := List.cons.inj h
      obtain ⟨hd, hbefore⟩ := List.forall_mem_cons.mp hbefore
      exact Or.inr ⟨hd, before, f, after, rfl, hf, hbefore⟩
  · rintro (hd | ⟨hd, before, f, after, rfl, hf, hbefore⟩)
    · exact ⟨[], d, docs, rfl, hd, by simp⟩
    · exact ⟨d :: before, f, after, rfl, hf, List.forall_mem_cons.mpr ⟨hd, hbefore⟩⟩

theorem Document.hasId_eq_false_of_listsId {d : Document} (hk : k.isKey = true)
    (h : listsId k d = true) : hasId k d = false := by
  unfold listsId at h
  split at h
  · rename_i items hitems
    rw [hasId, hitems]
    cases k <;> first | rfl | simp [Value.isKey] at hk
  · simp at h

theorem Collection.find?_hasId_iff (hk : k.isKey = true) {stored : Document}
    (hstored : hasId k stored = true) (docs : List Document) :
    (∃ d, (docs ++ [stored]).find? (identified k) = some d ∧ hasId k d = true) ↔
      ¬Shadowed docs k := by
  induction docs with
  | nil =>
    have hnone : ¬Shadowed [] k := by
      rintro ⟨before, d, after, h, -⟩
      simp at h
    simp [hnone, identified, hstored]
  | cons d rest ih =>
    rw [shadowed_cons, List.cons_append, List.find?_cons]
    rcases hlists : listsId k d with _ | _
    · rcases hhas : hasId k d with _ | _
      · simpa [identified, hlists, hhas] using ih
      · simp [identified, hlists, hhas]
    · have hhas := hasId_eq_false_of_listsId hk hlists
      simp [identified, hlists, hhas]

namespace Query

variable {m : Metered}

def RoundTrips (q : Query) (m : Metered) (id : Value) : Prop :=
  (∃ d, ((q.find (.native id)).run m).1 = .ok (some d) ∧ hasId id d = true) ∧
    ∃ n, ((q.deleteId (.native id)).run m).1 = .ok n ∧ 0 < n

theorem not_roundTrips_of_reclassified {id : Value} (h : Identifier.Reclassified id)
    (honline : m.collection.online = true) (options : Document) :
    ¬RoundTrips ⟨.empty, .standard, options⟩ m id := by
  have hnormal := Identifier.normalize_of_reclassified h
  have hk : (Identifier.normalize (.native id)).isKey = true := by
    rcases hnormal with ⟨o, ho⟩ | ⟨bytes, hb⟩
    · rw [ho]; rfl
    · rw [hb]; rfl
  rintro ⟨⟨d, hfind, hhas⟩, -⟩
  rw [run_find hk honline] at hfind
  have hpicked := List.find?_some (Except.ok.inj hfind)
  obtain ⟨s, rfl, -⟩ := h
  obtain ⟨v, hv, hs⟩ := (Option.any_eq_true _ _).mp hhas
  obtain rfl := Value.looseEq_string hs
  rw [identified, hasId, listsId, hv] at hpicked
  rcases hnormal with ⟨o, ho⟩ | ⟨bytes, hb⟩
  · simp [ho, Value.looseEq, Value.numeric?, Value.structEq] at hpicked
  · simp [hb, Value.looseEq, Value.numeric?, Value.structEq] at hpicked

/-- The identifier that an insertion answers can be looked up again exactly if it is no text that is
taken for something else and no list of identifiers is in front. -/
theorem roundTrips_insertGetId_iff {pairs : List (String × Literal)}
    (hkey : ∀ l, pairs.reverse.lookup "_id" = some l → l.isKey = true)
    (honline : m.collection.online = true) (hack : m.collection.acknowledged = true)
    (options : Document) : ∃ id m', (insertGetId (.map pairs)).run m = (.ok (some id), m') ∧
      (RoundTrips ⟨.empty, .standard, options⟩ m' id ↔
        ¬Identifier.Reclassified id ∧ ¬Collection.Shadowed m.collection.documents id) := by
  obtain ⟨stored, id, m', hrun, hdocs, honline', hack', hstored, hid⟩ :=
    run_insertGetId (l := .map pairs) rfl honline hack
  have hk : id.isKey = true := by
    rcases hid with hid | ⟨o, rfl⟩
    · rw [get?_toValue_map] at hid
      obtain ⟨l, hl, rfl⟩ := Option.map_eq_some_iff.mp hid
      exact Value.isKey_toValue (hkey l hl)
    · rfl
  refine ⟨id, m', hrun, ?_⟩
  by_cases hre : Identifier.Reclassified id
  · exact iff_of_false (not_roundTrips_of_reclassified hre honline' options) fun h => h.1 hre
  · have hnormal := Identifier.normalize_of_not_reclassified hre
    have hhas : hasId id stored = true := by
      rw [hasId, hstored]
      exact Value.looseEq_self_of_isKey hk
    have hpicked : stored ∈ (m.collection.documents ++ [stored]).filter (identified id) :=
      List.mem_filter.mpr ⟨by simp, by simp [identified, hhas]⟩
    rw [RoundTrips, run_find (by rwa [hnormal]) honline',
      run_deleteId (by rwa [hnormal]) honline' hack', hnormal, hdocs, and_iff_right hre,
      ← Collection.find?_hasId_iff hk hhas]
    exact ⟨fun h => by simpa using h.1, fun h => ⟨by simpa using h, _, rfl, List.length_pos_of_mem hpicked⟩⟩

theorem roundTrips_insertGetId_iff_integer :
    let c : Collection := { Collection.empty "people" true with
      documents := [[("_id", .array [.int32 1, .int32 2])], [("_id", .string "7")]] }
    let pairs : List (String × Literal) := [("name", .string "Ada"), ("_id", .integer 7)]
    (∀ l, pairs.reverse.lookup "_id" = some l → l.isKey = true) ∧ c.online = true ∧
      c.acknowledged = true ∧ ∃ id m', (insertGetId (.map pairs)).run (.ofCollection c) =
        (.ok (some id), m') ∧ RoundTrips ⟨.empty, .standard, []⟩ m' id := by
  intro c pairs
  have hkey : ∀ l, pairs.reverse.lookup "_id" = some l → l.isKey = true := by
    rintro l ⟨⟩
    rfl
  obtain ⟨id, m', hrun, hiff⟩ :=
    roundTrips_insertGetId_iff (m := .ofCollection c) hkey rfl rfl []
  have hid : id = .int32 7 := by
    have hfst := congrArg Prod.fst hrun
    exact (Option.some.inj (Except.ok.inj hfst)).symm
  subst hid
  refine ⟨hkey, rfl, rfl, _, m', hrun, hiff.mpr ⟨?_, ?_⟩⟩
  · rintro ⟨s, hs, -⟩
    cases hs
  · rintro ⟨before, d, after, hdocs, hlists, -⟩
    have hd : d ∈ c.documents := by
      change d ∈ (Metered.ofCollection c).collection.documents
      rw [hdocs]
      simp
    have hnone : ∀ e ∈ c.documents, listsId (.int32 7) e = false := by decide
    rw [hnone d hd] at hlists
    cases hlists

example : let digits : String := "507f1f77bcf86cd799439011"
    let m : Metered := .ofCollection (Collection.empty "people" true)
    ∃ m', (insertGetId (.map [("_id", .string digits)])).run m = (.ok (some (.string digits)), m') ∧
      (((⟨.empty, .standard, []⟩ : Query).find (.native (.string digits))).run m').1 = .ok none :=
  ⟨_, rfl, rfl⟩

end Query

end RelDoc
