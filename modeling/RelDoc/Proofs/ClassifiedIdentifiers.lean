import Mathlib.Algebra.Group.Nat.Defs
import Mathlib.Data.List.Induction
import RelDoc.Proofs.IdentifierRoundTrip

namespace RelDoc

namespace Text.Hex

def IsDigit (c : Char) : Prop :=
  ('0' ≤ c ∧ c ≤ '9') ∨ ('a' ≤ c ∧ c ≤ 'f') ∨ ('A' ≤ c ∧ c ≤ 'F')

variable {c : Char} {cs : List Char} {n : Nat}

theorem isSome_value? (c : Char) : (value? c).isSome = true ↔ IsDigit c := by
  have hle (a b : Char) : a ≤ b ↔ a.toNat ≤ b.toNat := Char.le_def
  simp only [IsDigit, hle, Char.reduceToNat, value?]
  split
  · simp_all
  · split
    · simp_all
    · split <;> simp_all

theorem digit_of_value? (h : value? c = some n) : n < 16 ∧ digit n = c.toLower := by
  have hall : ∀ k < 103, ∀ n ∈ value? (Char.ofNat k),
      n < 16 ∧ digit n = (Char.ofNat k).toLower := by decide
  have hlt : c.toNat < 103 := by
    by_contra hge
    rw [value?, if_neg (by omega), if_neg (by omega), if_neg (by omega)] at h
    cases h
  have hc := hall c.toNat hlt
  rw [Char.ofNat_toNat] at hc
  exact hc n h

theorem decode?_concat (cs : List Char) (c : Char) :
    decode? (cs ++ [c]) = (decode? cs).bind fun n => (value? c).map (16 * n + ·) := by
  rw [decode?, List.foldlM_append]
  exact congrArg (Option.bind _) (funext fun n => Option.bind_fun_some _)

theorem isSome_decode? (cs : List Char) : (decode? cs).isSome = true ↔ ∀ c ∈ cs, IsDigit c := by
  induction cs using List.reverseRecOn with
  | nil => simp [decode?]
  | append_singleton cs c ih =>
    rw [decode?_concat, List.forall_mem_append, List.forall_mem_singleton, ← ih, ← isSome_value?]
    cases decode? cs <;> simp

theorem encode_of_decode? (h : decode? cs = some n) :
    n < 16 ^ cs.length ∧ encode cs.length n = cs.map Char.toLower := by
  induction cs using List.reverseRecOn generalizing n with
  | nil =>
    obtain rfl := Option.some.inj h
    exact ⟨Nat.one_pos, rfl⟩
  | append_singleton cs c ih =>
    rw [decode?_concat] at h
    obtain ⟨front, hfront, hlast⟩ := Option.bind_eq_some_iff.mp h
    obtain ⟨last, hvalue, rfl⟩ := Option.map_eq_some_iff.mp hlast
    obtain ⟨hlt, hencode⟩ := ih hfront
    obtain ⟨hsmall, hdigit⟩ := digit_of_value? hvalue
    have hdiv : (16 * front + last) / 16 = front := by omega
    have hmod : (16 * front + last) % 16 = last := by omega
    rw [List.length_append, List.length_singleton, encode, hdiv, hmod, hencode, hdigit]
    constructor
    · rw [Nat.pow_succ]
      omega
    · simp

end Text.Hex

namespace ObjectId

def Writes (s : String) : Prop := s.toList.length = 24 ∧ ∀ c ∈ s.toList, Text.Hex.IsDigit c

theorem isSome_ofHex? (s : String) : (ofHex? s.toList).isSome = true ↔ Writes s := by
  unfold ofHex? Writes
  split
  · rw [Option.isSome_map, Text.Hex.isSome_decode?]
    simp_all
  · simp_all

theorem hex_of_ofHex? {cs : List Char} {id : ObjectId} (h : ofHex? cs = some id) :
    id.hex = String.ofList (cs.map Char.toLower) := by
  unfold ofHex? at h
  split at h
  · rename_i hlength
    obtain ⟨n, hn, rfl⟩ := Option.map_eq_some_iff.mp h
    obtain ⟨hlt, hencode⟩ := Text.Hex.encode_of_decode? hn
    rw [hlength] at hlt hencode
    rw [hex, BitVec.toNat_ofNat, Nat.mod_eq_of_lt (by omega), hencode]
  · cases h

end ObjectId

namespace Identifier

theorem decoded?_eq_some_iff {bytes : List UInt8} {s : String} :
    decoded? bytes = some s ↔ bytes = utf8 s := by
  have harray : bytes = utf8 s ↔ (⟨bytes.toArray⟩ : ByteArray) = s.toByteArray := by
    constructor
    · rintro rfl
      rfl
    · intro h
      rw [utf8, String.toUTF8_eq_toByteArray, ← h]
  rw [harray, decoded?, String.fromUTF8?]
  generalize (⟨bytes.toArray⟩ : ByteArray) = encoded
  constructor
  · intro h
    split at h
    · rw [← Option.some.inj h]
      rfl
    · cases h
  · rintro rfl
    exact dif_pos s.isValidUTF8

theorem length_le_length_utf8 (s : String) : s.toList.length ≤ (utf8 s).length := by
  have hchars : utf8 s = s.toList.flatMap String.utf8EncodeChar := by
    rw [utf8, String.toUTF8_eq_toByteArray, ← String.utf8Encode_toList, List.utf8Encode,
      List.data_toByteArray]
  rw [hchars]
  induction s.toList with
  | nil => exact Nat.le_refl 0
  | cons c cs ih =>
    have hpos := c.utf8Size_pos
    rw [List.flatMap_cons, List.length_append, String.length_utf8EncodeChar, List.length_cons]
    omega

def Unprintable (bytes : List UInt8) : Prop :=
  bytes.length = 16 ∧ ∃ b ∈ bytes, ¬(0x20 ≤ b ∧ b ≤ 0x7E) ∧ b ≠ 9 ∧ b ≠ 13 ∧ b ≠ 10

theorem isUuid_iff (bytes : List UInt8) : isUuid bytes = true ↔ Unprintable bytes := by
  have hplain (b : UInt8) : (!isPlainByte b) = true ↔
      ¬(0x20 ≤ b ∧ b ≤ 0x7E) ∧ b ≠ 9 ∧ b ≠ 13 ∧ b ≠ 10 := by
    rw [isPlainByte]
    grind
  simp only [isUuid, Unprintable, Bool.and_eq_true, beq_iff_eq, List.any_eq_true, hplain]

theorem not_writes_of_unprintable {s : String} (h : Unprintable (utf8 s)) : ¬ObjectId.Writes s := by
  intro hwrites
  have hle := length_le_length_utf8 s
  rw [hwrites.1, h.1] at hle
  omega

def text? : Literal → Option String
  | .string s | .native (.string s) => some s
  | _ => none

def bytes? : Literal → Option (List UInt8)
  | .bytes bytes => some bytes
  | l => (text? l).map utf8

/-- The rules for identifiers, the first that applies. -/
inductive Classified (l : Literal) : Value → Prop where
  | objectId {s : String} {id : ObjectId} (text : text? l = some s) (writes : ObjectId.Writes s)
      (digits : id.hex = String.ofList (s.toList.map Char.toLower)) : Classified l (.objectId id)
  | uuid {bytes : List UInt8} (other : ∀ s, text? l = some s → ¬ObjectId.Writes s)
      (same : bytes? l = some bytes) (unprintable : Unprintable bytes) :
      Classified l (.binary 4 bytes)
  | stored (other : ∀ s, text? l = some s → ¬ObjectId.Writes s)
      (printable : ∀ bytes, bytes? l = some bytes → ¬Unprintable bytes) : Classified l l.toValue

variable {l : Literal} {s : String}

theorem ofString_of_not_writes (h : ¬ObjectId.Writes s) :
    ofString s = if isUuid (utf8 s) then .binary 4 (utf8 s) else .string s := by
  have hnone : ObjectId.ofHex? s.toList = none := by
    rw [← Option.not_isSome_iff_eq_none, ObjectId.isSome_ofHex?]
    exact h
  rw [ofString, hnone]

theorem ofString_of_unprintable (h : Unprintable (utf8 s)) : ofString s = .binary 4 (utf8 s) := by
  rw [ofString_of_not_writes (not_writes_of_unprintable h), if_pos ((isUuid_iff _).mpr h)]

theorem classified_ofString (htext : text? l = some s) (hbytes : bytes? l = some (utf8 s))
    (hstored : l.toValue = .string s) : Classified l (ofString s) := by
  by_cases hwrites : ObjectId.Writes s
  · obtain ⟨id, hid⟩ := Option.isSome_iff_exists.mp ((ObjectId.isSome_ofHex? s).mpr hwrites)
    rw [ofString, hid]
    exact .objectId htext hwrites (ObjectId.hex_of_ofHex? hid)
  · have hother : ∀ t, text? l = some t → ¬ObjectId.Writes t := by
      rintro t ht
      obtain rfl := Option.some.inj (htext.symm.trans ht)
      exact hwrites
    by_cases hunprintable : Unprintable (utf8 s)
    · rw [ofString_of_unprintable hunprintable]
      exact .uuid hother hbytes hunprintable
    · rw [ofString_of_not_writes hwrites, if_neg (mt (isUuid_iff _).mp hunprintable), ← hstored]
      refine .stored hother fun bytes h => ?_
      obtain rfl := Option.some.inj (hbytes.symm.trans h)
      exact hunprintable

theorem classified_of_decoded?_none {bytes : List UInt8} (h : decoded? bytes = none) :
    Classified (.bytes bytes) (normalize (.bytes bytes)) := by
  have hother : ∀ s, text? (.bytes bytes) = some s → ¬ObjectId.Writes s := by
    rintro s ⟨⟩
  change Classified _ (ofBytes bytes)
  rw [ofBytes, h]
  by_cases hunprintable : Unprintable bytes
  · simp only [(isUuid_iff _).mpr hunprintable, if_true]
    exact .uuid hother rfl hunprintable
  · simp only [mt (isUuid_iff _).mp hunprintable]
    refine .stored hother ?_
    rintro _ ⟨⟩
    exact hunprintable

theorem normalize_utf8 (s : String) : normalize (.bytes (utf8 s)) = normalize (.string s) := by
  change ofBytes (utf8 s) = ofString s
  rw [ofBytes, decoded?_eq_some_iff.mpr rfl]

theorem Classified.exists_eq_binary {bytes : List UInt8} {v : Value}
    (h : Classified (.bytes bytes) v) : ∃ subtype, v = .binary subtype bytes := by
  cases h with
  | objectId text => cases text
  | uuid _ same =>
    cases same
    exact ⟨4, rfl⟩
  | stored => exact ⟨0, rfl⟩

theorem classified_utf8_iff (s : String) :
    Classified (.bytes (utf8 s)) (normalize (.bytes (utf8 s))) ↔ Unprintable (utf8 s) := by
  rw [normalize_utf8]
  change Classified _ (ofString s) ↔ _
  constructor
  · intro h
    obtain ⟨subtype, hsubtype⟩ := h.exists_eq_binary
    rw [ofString] at hsubtype
    split at hsubtype
    · cases hsubtype
    · split at hsubtype
      · rename_i huuid
        exact (isUuid_iff _).mp huuid
      · cases hsubtype
  · intro h
    rw [ofString_of_unprintable h]
    refine .uuid ?_ rfl h
    rintro t ⟨⟩

theorem not_reclassified_ofString (s : String) : ¬Reclassified (ofString s) := by
  rintro ⟨t, ht, h⟩
  rw [ofString] at ht
  split at ht
  · cases ht
  · split at ht
    · cases ht
    · obtain rfl := Value.string.inj ht
      simp_all

theorem not_reclassified_normalize (l : Literal) : ¬Reclassified (normalize l) := by
  cases l with
  | string s => exact not_reclassified_ofString s
  | bytes bytes =>
    change ¬Reclassified (ofBytes bytes)
    rw [ofBytes]
    split
    · exact not_reclassified_ofString _
    · rintro ⟨s, ⟨⟩, -⟩
  | native v =>
    cases v with
    | string s => exact not_reclassified_ofString s
    | _ => rintro ⟨s, ⟨⟩, -⟩
  | integer n =>
    rintro ⟨s, hs, -⟩
    change Value.ofInt64 n = _ at hs
    rw [Value.ofInt64] at hs
    split at hs <;> cases hs
  | _ => rintro ⟨s, ⟨⟩, -⟩

theorem classified_normalize (h : ∀ s, l ≠ .bytes (utf8 s)) : Classified l (normalize l) := by
  cases l with
  | string s => exact classified_ofString rfl rfl rfl
  | bytes bytes =>
    apply classified_of_decoded?_none
    by_contra hdecoded
    obtain ⟨s, hs⟩ := Option.ne_none_iff_exists'.mp hdecoded
    exact h s (congrArg Literal.bytes (decoded?_eq_some_iff.mp hs))
  | native v =>
    cases v with
    | string s => exact classified_ofString rfl rfl rfl
    | _ => exact .stored (fun _ => nofun) (fun _ => nofun)
  | _ => exact .stored (fun _ => nofun) (fun _ => nofun)

/-- An identifier is sorted by the rules exactly if it is not given as bytes that encode a text and are
no UUID; these bytes are sorted as that text. What is sorted stays so. -/
theorem classified_normalize_iff (l : Literal) :
    (Classified l (normalize l) ↔ ¬∃ s, l = .bytes (utf8 s) ∧ ¬Unprintable (utf8 s)) ∧
      (∀ s, normalize (.bytes (utf8 s)) = normalize (.string s)) ∧
      normalize (.native (normalize l)) = normalize l := by
  refine ⟨⟨?_, fun h => ?_⟩, normalize_utf8,
    normalize_of_not_reclassified (not_reclassified_normalize l)⟩
  · rintro h ⟨s, rfl, hprintable⟩
    exact hprintable ((classified_utf8_iff s).mp h)
  · by_cases htext : ∃ s, l = .bytes (utf8 s)
    · obtain ⟨s, rfl⟩ := htext
      rw [classified_utf8_iff]
      by_contra hprintable
      exact h ⟨s, rfl, hprintable⟩
    · exact classified_normalize (not_exists.mp htext)

example : (Literal.bytes [97, 98, 99]).toValue = .binary 0 [97, 98, 99] ∧
    normalize (.bytes [97, 98, 99]) = .string "abc" := ⟨rfl, rfl⟩

end Identifier

end RelDoc
