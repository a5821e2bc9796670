import DocStore.Proofs.Session.Serialized
import DocStore.Proofs.Text.Decimal

/-! What is written for an id is read as that id. An id is written as its text, as a member of a document, as an id of its
    own type, and in the column for its type; whichever of these is converted to its type, a valid id comes back. -/

namespace DocStore

namespace Text

/-- There is no white space in what is written for a number. -/
theorem trim_integerText (n : Int) : trim (integerText n) = integerText n := by
  have hdigits : ∀ m, ∀ c ∈ decimal m, isBlank c = false := by
    intro m c hc
    have hdigit := isDigit_decimal m c hc
    simp only [isDigit, Bool.and_eq_true, decide_eq_true_eq, Char.le_def, UInt32.le_iff_toNat_le] at hdigit
    have hlow : 48 ≤ c.toNat := hdigit.1
    have hhigh : c.toNat ≤ 57 := hdigit.2
    simp only [isBlank, Bool.or_eq_false_iff, Bool.and_eq_false_iff, decide_eq_false_iff_not, beq_eq_false_iff_ne]
    omega
  refine trim_eq_self ?_
  cases n with
  | ofNat n => exact hdigits n
  | negSucc n =>
    rw [integerText, List.forall_mem_cons]
    exact ⟨by decide, hdigits (n + 1)⟩

theorem int64?_integerText {n : Int} (h : isInt64 n = true) : int64? (integerText n) = some n := by
  rw [int64?, integer?_integerText, Option.filter_some, if_pos h]

end Text

namespace DocId

open Sql (Affinity)

/-- A number that fits its type is read from its text as it is read from itself. -/
theorem ofString_integerText {n : Int} (h : Text.isInt64 n = true) {t : IdType} (ht : t.isIdentity = true) :
    ofString (String.ofList (Text.integerText n)) t = ofInt n t := by
  cases t with
  | identity | bigIdentity =>
    rw [ofString, String.toList_ofList, Text.trim_integerText, Text.int64?_integerText h]
    all_goals rintro ⟨⟩
  | guid | string => cases ht

theorem isInt64_of_isInt32 {n : Int} (h : Text.isInt32 n = true) : Text.isInt64 n = true := by
  simp only [Text.isInt32, Text.isInt64, Bool.and_eq_true, decide_eq_true_eq] at h ⊢
  simp only [Text.minInt64, Text.maxInt64]
  omega

theorem convert_inColumn {id : DocId} (h : id.IsValid) : convert id.inColumn id.idType = .ok id :=
  convert_eq_ok.mpr (readable_iff.mp h.readable)

theorem convert_text {id : DocId} (h : id.IsValid) : convert (.text id.text) id.idType = .ok id := by
  have hback := convert_inColumn h
  rw [convert_eq_ok] at hback ⊢
  rw [← hback]
  cases id with
  | identity n => exact ofString_integerText (t := .identity) (isInt64_of_isInt32 h.fits) rfl
  | bigIdentity n => exact ofString_integerText (t := .bigIdentity) h.fits rfl
  | guid g | string s => rfl

/-- What a column for the type of an id holds after the id was written to it is read as that id. -/
theorem idOf_idDatum {id : DocId} (h : id.IsValid) {t : Store.TableSet} (ht : t.affinity = .ofIdType id.idType) :
    Store.idOf id.idType (t.idDatum id) = .ok id := by
  have hdatum : t.idDatum id = id.datum := by
    rw [Store.TableSet.idDatum, ht]
    exact apply_datum id
  rw [hdatum]
  exact idOf_datum_of_isValid h

theorem convert_bigIdentity {n : Int} (hpos : 0 < n) :
    convert (.id (bigIdentity n)) .identity =
      if n ≤ 2147483647 then .ok (identity n)
      else .error (.invalidId IdType.identity.name (Fault.outOfRange n).message) := by
  rw [convert, convert?, ofId, ofInt]
  by_cases hle : n ≤ 2147483647
  · have hfits : Text.isInt32 n = true := by
      simp only [Text.isInt32, Bool.and_eq_true, decide_eq_true_eq]
      omega
    rw [hfits, if_neg (by simp), if_neg (Int.not_le.mpr hpos), if_pos hle]
    rfl
  · have hlarge : Text.isInt32 n = false := by
      simp only [Text.isInt32, Bool.and_eq_false_iff, decide_eq_false_iff_not]
      omega
    rw [hlarge, if_pos (by simp), if_neg hle]
    rfl

/-- Whatever is written for a valid id is converted to it: its text, its member of a document, the id itself and what
    its column holds. Identities of the two sizes are converted into each other as long as the number fits the small
    one. -/
theorem convert_encoded :
    (∀ id : DocId, id.IsValid →
      convert (.text id.text) id.idType = .ok id ∧
      convert (.json id.toJson) id.idType = .ok id ∧
      convert (.id id) id.idType = .ok id ∧
      ∀ t : Store.TableSet, t.affinity = .ofIdType id.idType → Store.idOf id.idType (t.idDatum id) = .ok id) ∧
    (∀ n, (identity n).IsValid → convert (.id (identity n)) .bigIdentity = .ok (bigIdentity n)) ∧
    ∀ n, (bigIdentity n).IsValid →
      convert (.id (bigIdentity n)) .identity =
        if n ≤ 2147483647 then .ok (identity n)
        else .error (.invalidId IdType.identity.name (Fault.outOfRange n).message) := by
  refine ⟨fun id h => ⟨convert_text h, convert_toJson h, convert_id id, fun t => idOf_idDatum h⟩, ?_, ?_⟩
  · rintro n -
    rfl
  · rintro n h
    exact convert_bigIdentity h.1

/-- A string keeps the white space around it, the largest small identity becomes a big one, and the next one does not
    become a small one. -/
theorem convert_encoded_at_bounds :
    (string " a ").IsValid ∧ (identity 2147483647).IsValid ∧ (bigIdentity 2147483648).IsValid ∧
      convert (.text " a ") .string = .ok (string " a ") ∧
      Store.idOf .string (Store.TableSet.idDatum ⟨"Note", .text, [], [], []⟩ (string " a ")) = .ok (string " a ") ∧
      convert (.id (identity 2147483647)) .bigIdentity = .ok (bigIdentity 2147483647) ∧
      convert (.id (bigIdentity 2147483648)) .identity =
        .error (.invalidId "Identity" (Fault.outOfRange 2147483648).message) := by
  have hstring : (string " a ").IsValid := by
    show ¬Text.isBlankText " a " = true
    decide
  have hsmall : (identity 2147483647).IsValid := ⟨by decide, by decide⟩
  have hbig : (bigIdentity 2147483648).IsValid := ⟨by decide, by decide⟩
  obtain ⟨hids, hlarger, hsmaller⟩ := convert_encoded
  obtain ⟨htext, -, -, hcolumn⟩ := hids _ hstring
  refine ⟨hstring, hsmall, hbig, htext, hcolumn _ rfl, hlarger _ hsmall, ?_⟩
  rw [hsmaller _ hbig, if_neg (by decide), IdType.name]

end DocId

end DocStore
