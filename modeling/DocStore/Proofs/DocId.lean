import DocStore.Proofs.Except
import DocStore.Proofs.Guid
import DocStore.Proofs.Sql.Datum
import DocStore.Store.Reading

/-! Ids and their columns. Different ids of one type are different data, to which the affinity of their column does
    nothing, and what is read back from the datum of an id is that id. -/

namespace DocStore

/-- An id whose number, if it is one, has the size of its type. -/
def DocId.Fits : DocId → Prop
  | .identity n => Text.isInt32 n = true
  | .bigIdentity n => Text.isInt64 n = true
  | .guid _ | .string _ => True

/-- An id as it can be given: numbers have 64 bits, and those of ids the size of their type. -/
def RawId.Fits : RawId → Prop
  | .int n => Text.isInt64 n = true
  | .id i => i.Fits
  | .guid _ | .text _ | .json _ => True

/-- An id that is given as a valid one: whatever it is converted to is valid. -/
def RawId.Valid (raw : RawId) : Prop := ∀ {t : IdType} {id : DocId}, DocId.convert raw t = .ok id → id.IsValid

namespace DocId

open Sql (Datum Affinity)

/-- What the id columns hold for an id of their type. -/
def datum (id : DocId) : Datum := .ofValue id.toValue

theorem apply_datum (id : DocId) : (Affinity.ofIdType id.idType).apply id.datum = id.datum := by
  cases id <;> rfl

theorem datum_inj {a b : DocId} (ht : a.idType = b.idType) (h : a.datum = b.datum) : a = b := by
  cases a <;> cases b <;> cases ht
  case identity.identity m n => exact congrArg identity (Datum.integer.inj h)
  case bigIdentity.bigIdentity m n => exact congrArg bigIdentity (Datum.integer.inj h)
  case guid.guid g g' => exact congrArg guid (Guid.text_inj (Datum.text.inj h))
  case string.string s s' => exact congrArg string (Datum.text.inj h)

theorem same_datum {a b : DocId} (ht : a.idType = b.idType) : Store.same a.datum b.datum = true ↔ a = b := by
  rw [Datum.same_eq_stands]
  constructor
  · intro h
    refine datum_inj ht ?_
    cases b with
    | identity n | bigIdentity n =>
      cases a with
      | identity m | bigIdentity m => exact congrArg Datum.integer (Int.compare_eq_eq.mp (Datum.stands_eq.mp h).2.2)
      | guid g | string s => cases ht
    | guid g | string s => exact Datum.stands_eq_text.mp h
  · rintro rfl
    rw [Datum.stands_eq]
    exact ⟨by cases a <;> exact nofun, by cases a <;> exact nofun, Std.ReflCmp.compare_self⟩

/-! ### Conversion -/

theorem idType_ofInt {n : Int} {t : IdType} {id : DocId} (h : ofInt n t = .ok id) : id.idType = t := by
  unfold ofInt at h
  cases t with
  | identity | bigIdentity => split at h <;> grind [idType]
  | guid | string => cases h

theorem idType_ofString {s : String} {t : IdType} {id : DocId} (h : ofString s t = .ok id) : id.idType = t := by
  cases t with
  | string =>
    rw [ofString] at h
    split at h <;> cases h
    rfl
  | guid =>
    rw [ofString] at h
    split at h
    · rw [ofGuid] at h
      split at h <;> cases h
      rfl
    · cases h
  | identity | bigIdentity =>
    rw [ofString] at h
    · split at h
      · exact idType_ofInt h
      · cases h
    all_goals exact nofun

theorem idType_ofId {i : DocId} {t : IdType} {id : DocId} (h : ofId i t = .ok id) : id.idType = t := by
  unfold ofId at h
  split at h
  · split at h <;> cases h <;> rfl
  · split at h
    · cases h; rfl
    · exact idType_ofInt h
    · cases h
  · split at h <;> cases h
    assumption

theorem convert_eq_ok {raw : RawId} {t : IdType} {id : DocId} : convert raw t = .ok id ↔ convert? raw t = .ok id :=
  mapError_eq_ok

theorem idType_convert {raw : RawId} {t : IdType} {id : DocId} (h : convert raw t = .ok id) : id.idType = t := by
  rw [convert_eq_ok] at h
  cases raw with
  | int n =>
    rw [convert?] at h
    exact idType_ofInt h
  | guid g =>
    cases t <;> rw [convert?, ofGuid] at h
    case guid => split at h <;> cases h; rfl
    all_goals cases h
  | text s =>
    rw [convert?] at h
    exact idType_ofString h
  | json v =>
    rw [convert?, ofJson.eq_def] at h
    split at h
    · split at h
      · exact idType_ofInt h
      · cases h
    · exact idType_ofString h
    · cases h
  | id i =>
    rw [convert?] at h
    exact idType_ofId h

/-! ### Reading back -/

/-- What an id is converted from when it is read back. -/
def inColumn : DocId → RawId
  | identity n | bigIdentity n => .int n
  | guid g => .text g.text
  | string s => .text s

theorem idOf_datum_eq (id : DocId) :
    Store.idOf id.idType id.datum = (convert id.inColumn id.idType).mapError Error.validation := by
  cases id <;> rfl

theorem convert?_inColumn_guid (g : Guid) : convert? (guid g).inColumn .guid = ofGuid g .guid := by
  rw [inColumn, convert?, ofString, Guid.trim_text, String.ofList_toList, Guid.ofText?_text]

theorem idType_idOf {ty : IdType} {d : Datum} {id : DocId} (h : Store.idOf ty d = .ok id) : id.idType = ty := by
  cases d with
  | integer n =>
    rw [Store.idOf, mapError_eq_ok] at h
    exact idType_convert h
  | text s =>
    rw [Store.idOf, mapError_eq_ok] at h
    exact idType_convert h
  | null | real x => cases h

/-- What is read back from the datum of an id is that id, if anything. -/
theorem idOf_datum {id id' : DocId} (h : Store.idOf id.idType id.datum = .ok id') : id' = id := by
  rw [idOf_datum_eq, mapError_eq_ok, convert_eq_ok] at h
  cases id with
  | identity n | bigIdentity n =>
    rw [inColumn, convert?, idType, ofInt] at h
    grind
  | guid g =>
    rw [idType, convert?_inColumn_guid, ofGuid] at h
    grind
  | string s =>
    rw [inColumn, convert?, idType, ofString] at h
    grind

theorem idOf_datum_of_isValid {id : DocId} (h : id.IsValid) : Store.idOf id.idType id.datum = .ok id := by
  rw [idOf_datum_eq, mapError_eq_ok, convert_eq_ok]
  cases id with
  | identity n =>
    obtain ⟨hpos, hle⟩ := h
    have hfits : Text.isInt32 n = true := by
      simp only [Text.isInt32, Bool.and_eq_true, decide_eq_true_eq]
      omega
    rw [inColumn, convert?, idType, ofInt, hfits, if_neg (by simp), if_neg (Int.not_le.mpr hpos)]
  | bigIdentity n => rw [inColumn, convert?, idType, ofInt, if_neg (Int.not_le.mpr h.1)]
  | guid g => rw [idType, convert?_inColumn_guid, ofGuid, if_neg h]
  | string s => rw [inColumn, convert?, idType, ofString, if_neg h]

/-! ### What conversion lets pass -/

/-- An id that is read back from its column. -/
def Readable (id : DocId) : Prop := Store.idOf id.idType id.datum = .ok id

theorem readable_iff {id : DocId} : id.Readable ↔ convert? id.inColumn id.idType = .ok id := by
  rw [Readable, idOf_datum_eq, mapError_eq_ok, convert_eq_ok]

theorem readable_identity {n : Int} : (identity n).Readable ↔ 0 < n ∧ n ≤ 2147483647 := by
  rw [readable_iff, inColumn, convert?, idType, ofInt]
  simp only [Text.isInt32]
  grind

theorem readable_bigIdentity {n : Int} : (bigIdentity n).Readable ↔ 0 < n := by
  rw [readable_iff, inColumn, convert?, idType, ofInt]
  grind

theorem readable_guid {g : Guid} : (guid g).Readable ↔ ¬g.isNil := by
  rw [readable_iff, idType, convert?_inColumn_guid, ofGuid]
  grind

theorem readable_string {s : String} : (string s).Readable ↔ ¬Text.isBlankText s := by
  rw [readable_iff, inColumn, convert?, idType, ofString]
  grind

theorem IsValid.readable {id : DocId} (h : id.IsValid) : id.Readable := idOf_datum_of_isValid h

theorem readable_ofInt {n : Int} {t : IdType} {id : DocId} (h : ofInt n t = .ok id) : id.Readable := by
  cases t with
  | identity =>
    have hid : id = identity n := by
      rw [ofInt] at h
      grind
    subst hid
    exact readable_iff.mpr h
  | bigIdentity =>
    have hid : id = bigIdentity n := by
      rw [ofInt] at h
      grind
    subst hid
    exact readable_iff.mpr h
  | guid | string => cases h

theorem readable_ofGuid {g : Guid} {t : IdType} {id : DocId} (h : ofGuid g t = .ok id) : id.Readable := by
  cases t with
  | guid =>
    rw [ofGuid] at h
    split at h <;> cases h
    rwa [readable_guid]
  | identity | bigIdentity | string => cases h

theorem readable_ofString {s : String} {t : IdType} {id : DocId} (h : ofString s t = .ok id) : id.Readable := by
  cases t with
  | string =>
    rw [ofString] at h
    split at h <;> cases h
    rwa [readable_string]
  | guid =>
    rw [ofString] at h
    split at h
    · exact readable_ofGuid h
    · cases h
  | identity | bigIdentity =>
    rw [ofString] at h
    · split at h
      · exact readable_ofInt h
      · cases h
    all_goals exact nofun

theorem ofJson_eq_ok {v : Json} {t : IdType} {id : DocId} (h : ofJson v t = .ok id) :
    (∃ n, Text.isInt64 n = true ∧ ofInt n t = .ok id) ∨ ∃ s, ofString s t = .ok id := by
  rw [ofJson.eq_def] at h
  split at h
  · split at h
    · rename_i n _ i hi
      refine Or.inl ⟨i, ?_, h⟩
      cases n with
      | integer m =>
        rw [Json.int64?] at hi
        split at hi <;> cases hi
        assumption
      | double x => cases hi
    · cases h
  · exact Or.inr ⟨_, h⟩
  · cases h

/-- An id given as one of a type stays what it is, and an identity keeps its number when it gets another size. -/
theorem readable_ofId {i : DocId} (hfits : i.Fits) {t : IdType} {id : DocId} (h : ofId i t = .ok id) :
    id.Readable ↔ i.Readable := by
  rw [ofId.eq_def] at h
  split at h
  · rename_i n
    split at h <;> cases h
    · rfl
    · have hint : Text.isInt32 n = true := hfits
      rw [Text.isInt32, Bool.and_eq_true, decide_eq_true_eq, decide_eq_true_eq] at hint
      rw [readable_bigIdentity, readable_identity]
      exact ⟨fun hpos => ⟨hpos, hint.2⟩, And.left⟩
  · rename_i n
    split at h
    · cases h
      rfl
    · have hback := readable_ofInt h
      have hid : id = identity n := by
        rw [ofInt] at h
        grind
      subst hid
      exact iff_of_true hback (readable_bigIdentity.mpr (readable_identity.mp hback).1)
    · cases h
  · split at h <;> cases h
    rfl

/-- What is no id yet is checked when it is made one. -/
theorem readable_convert {raw : RawId} (hraw : ∀ i, raw ≠ .id i) {t : IdType} {id : DocId} (h : convert raw t = .ok id) :
    id.Readable := by
  rw [convert_eq_ok] at h
  cases raw with
  | int n => exact readable_ofInt h
  | guid g => exact readable_ofGuid h
  | text s =>
    rw [convert?] at h
    exact readable_ofString h
  | json v =>
    obtain ⟨n, -, h⟩ | ⟨s, h⟩ := ofJson_eq_ok h
    · exact readable_ofInt h
    · exact readable_ofString h
  | id i => exact absurd rfl (hraw i)

/-- What conversion lets pass can be read back, unless it was given as an id that cannot. -/
theorem readable_convert_iff {raw : RawId} (hfits : raw.Fits) {t : IdType} {id : DocId} (h : convert raw t = .ok id) :
    id.Readable ↔ ∀ i, raw = .id i → i.Readable := by
  by_cases hraw : ∃ i, raw = .id i
  · obtain ⟨i, rfl⟩ := hraw
    rw [readable_ofId hfits (convert_eq_ok.mp h)]
    exact ⟨fun hi j hj => RawId.id.inj hj ▸ hi, fun hall => hall i rfl⟩
  · have hother : ∀ i, raw ≠ .id i := fun i hi => hraw ⟨i, hi⟩
    exact iff_of_true (readable_convert hother h) fun i hi => absurd hi (hother i)

theorem fits_of_idType {id : DocId} (h : id.idType.isIdentity = false) : id.Fits := by
  cases id with
  | guid g | string s => trivial
  | identity n | bigIdentity n => cases h

theorem fits_ofInt {n : Int} (hn : Text.isInt64 n = true) {t : IdType} {id : DocId} (h : ofInt n t = .ok id) :
    id.Fits := by
  cases t with
  | identity =>
    rw [ofInt] at h
    split at h
    · cases h
    · rename_i hint
      split at h <;> cases h
      simpa [Fits] using hint
  | bigIdentity =>
    rw [ofInt] at h
    split at h <;> cases h
    exact hn
  | guid | string => cases h

theorem fits_ofString {s : String} {t : IdType} {id : DocId} (h : ofString s t = .ok id) : id.Fits := by
  have htype := idType_ofString h
  cases t with
  | guid | string => exact fits_of_idType (htype ▸ rfl)
  | identity | bigIdentity =>
    rw [ofString] at h
    · split at h
      · rename_i n hn
        exact fits_ofInt (Option.filter_eq_some_iff.mp hn).2 h
      · cases h
    all_goals exact nofun

theorem fits_ofId {i : DocId} (hfits : i.Fits) {t : IdType} {id : DocId} (h : ofId i t = .ok id) : id.Fits := by
  rw [ofId.eq_def] at h
  split at h
  · split at h <;> cases h
    · exact hfits
    · have hint : Text.isInt32 _ = true := hfits
      show Text.isInt64 _ = true
      rw [Text.isInt32, Bool.and_eq_true, decide_eq_true_eq, decide_eq_true_eq] at hint
      rw [Text.isInt64, Bool.and_eq_true, decide_eq_true_eq, decide_eq_true_eq]
      simp only [Text.minInt64, Text.maxInt64]
      omega
  · split at h
    · cases h
      exact hfits
    · exact fits_ofInt hfits h
    · cases h
  · split at h <;> cases h
    exact hfits

theorem fits_convert {raw : RawId} (hfits : raw.Fits) {t : IdType} {id : DocId} (h : convert raw t = .ok id) :
    id.Fits := by
  rw [convert_eq_ok] at h
  cases raw with
  | int n => exact fits_ofInt hfits h
  | guid g =>
    have htype : id.idType = t := idType_convert (convert_eq_ok.mpr h)
    rw [convert?] at h
    cases t <;> rw [ofGuid] at h
    case guid => exact fits_of_idType (htype ▸ rfl)
    all_goals cases h
  | text s =>
    rw [convert?] at h
    exact fits_ofString h
  | json v =>
    obtain ⟨n, hn, h⟩ | ⟨s, h⟩ := ofJson_eq_ok h
    · exact fits_ofInt hn h
    · exact fits_ofString h
  | id i => exact fits_ofId hfits h

theorem IsValid.fits {id : DocId} (h : id.IsValid) : id.Fits := by
  cases id with
  | identity n =>
    obtain ⟨hpos, hle⟩ := h
    show Text.isInt32 n = true
    rw [Text.isInt32, Bool.and_eq_true, decide_eq_true_eq, decide_eq_true_eq]
    omega
  | bigIdentity n =>
    obtain ⟨hpos, hle⟩ := h
    show Text.isInt64 n = true
    rw [Text.isInt64, Bool.and_eq_true, decide_eq_true_eq, decide_eq_true_eq]
    simp only [Text.minInt64]
    omega
  | guid g | string s => trivial

/-- An id of its size is valid if and only if it can be read back. -/
theorem isValid_iff_readable {id : DocId} (hfits : id.Fits) : id.IsValid ↔ id.Readable := by
  refine ⟨IsValid.readable, fun h => ?_⟩
  cases id with
  | identity n => exact readable_identity.mp h
  | bigIdentity n =>
    have hint : Text.isInt64 n = true := hfits
    rw [Text.isInt64, Bool.and_eq_true, decide_eq_true_eq, decide_eq_true_eq] at hint
    exact ⟨readable_bigIdentity.mp h, hint.2⟩
  | guid g => exact readable_guid.mp h
  | string s => exact readable_string.mp h

/-- What conversion lets pass is valid, unless it was given as an id that is not. -/
theorem isValid_convert_iff {raw : RawId} (hfits : raw.Fits) {t : IdType} {id : DocId} (h : convert raw t = .ok id) :
    id.IsValid ↔ ∀ i, raw = .id i → i.IsValid := by
  rw [isValid_iff_readable (fits_convert hfits h), readable_convert_iff hfits h]
  refine forall₂_congr fun i hi => ?_
  subst hi
  exact (isValid_iff_readable hfits).symm

/-- The GUIDs that are handed out are not nil, having a version. -/
theorem readable_inSequence (n : Nat) : (guid (Guid.inSequence n)).Readable := by
  rw [readable_guid, Guid.isNil]
  intro hnil
  have hzero : (Guid.inSequence n).value.toNat = 0 := congrArg BitVec.toNat (eq_of_beq hnil)
  rw [Guid.inSequence, BitVec.toNat_ofNat] at hzero
  have h80 : twoTo 80 = 2 ^ 80 := rfl
  have h76 : twoTo 76 = 2 ^ 76 := rfl
  have h62 : twoTo 62 = 2 ^ 62 := rfl
  rw [h80, h76, h62] at hzero
  omega

end DocId

end DocStore
