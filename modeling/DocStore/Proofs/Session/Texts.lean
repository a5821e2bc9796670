import DocStore.Proofs.DocId
import DocStore.Proofs.Payload
import DocStore.Proofs.Step
import DocStore.Session.Writing
import Mathlib.Data.List.Forall2

/-! What items are written as, and what texts are read as. Neither has an excluded member any more; what was read carries
    an id of its type if it carries one, and is the document of the item that serializes to it. -/

namespace DocStore

/-- Leaving the excluded members out once more changes nothing. -/
theorem Payload.strip_strip (excluded : List String) (v : Json) : strip excluded (strip excluded v) = strip excluded v := by
  cases v with
  | object ms => simp only [strip, List.filter_filter, Bool.and_self]
  | _ => rfl

/-- An item is written as what it serializes to, without the excluded members. -/
theorem Item.written_eq_ok {excluded : List String} {i : Item} {document : Json} :
    i.written excluded = .ok document ↔ ∃ v, i.serialized = .ok v ∧ Payload.strip excluded v = document := by
  rw [Item.written]
  cases i.serialized with
  | error reason => exact iff_of_false nofun nofun
  | ok v => simp

namespace Session

variable {excluded : List String} {s : Schema}

/-! ### Items -/

section
variable {ses : Session} {item : Item} {db : Database}

/-- An item is written as its document. -/
theorem insertItem_eq {document : Json} (h : item.written db.config.excluded = .ok document) (id : DocId) :
    ses.insertItem s item id db = ses.writeDocument s document id db := by
  have hdocument : documentOf item db = (.ok document, db) := by
    show Step.ofExcept ((item.written db.config.excluded).mapError Error.serialization) db = _
    rw [h]
    rfl
  exact Step.bind_ok hdocument _

/-- An item that cannot be serialized is not written. -/
theorem insertItem_unserialized {e : SerializationError} (h : item.written db.config.excluded = .error e) (id : DocId) :
    ses.insertItem s item id db = (.error (.serialization e), db) := by
  have hdocument : documentOf item db = (.error (.serialization e), db) := by
    show Step.ofExcept ((item.written db.config.excluded).mapError Error.serialization) db = _
    rw [h]
    rfl
  exact Step.bind_error hdocument _

end

/-! ### Texts -/

/-- The item that serializes to what was read. -/
def Parsed.item (p : Parsed) : Item := ⟨.ok p.document, p.id?⟩

/-- What is known of what a text was read as. -/
structure WasRead (excluded : List String) (s : Schema) (p : Parsed) : Prop where
  stripped : Payload.strip excluded p.document = p.document
  converted : ∀ id, p.id? = some id → ∃ v, convert s (.json v) = .ok id

/-- The item that it serializes from is written as it was read. -/
theorem WasRead.written {p : Parsed} (h : WasRead excluded s p) : p.item.written excluded = .ok p.document :=
  congrArg Except.ok h.stripped

theorem WasRead.idType {p : Parsed} (h : WasRead excluded s p) (id : DocId) (hid : p.id? = some id) :
    id.idType = s.idType := by
  obtain ⟨v, hv⟩ := h.converted id hid
  exact DocId.idType_convert (mapError_eq_ok.mp hv)

theorem converted_of_idOf {document : Json} {id : DocId} (h : idOf s document = .ok (some id)) :
    ∃ v, convert s (.json v) = .ok id := by
  unfold idOf at h
  split at h
  · cases h
  · cases h
  · obtain ⟨id', hid', heq⟩ := map_eq_ok.mp h
    cases heq
    exact ⟨_, hid'⟩

theorem wasRead_of_parsedOf {text : String} {p : Parsed} (h : parsedOf excluded s text = .ok p) :
    WasRead excluded s p := by
  obtain ⟨document, hparse, h⟩ := bind_eq_ok.mp h
  obtain ⟨-, h⟩ := guard_eq_ok.mp h
  obtain ⟨id?, hid, h⟩ := bind_eq_ok.mp h
  obtain ⟨v, -, rfl⟩ := map_eq_ok.mp (mapError_eq_ok.mp hparse)
  cases h
  refine ⟨Payload.strip_strip excluded v, fun id h => ?_⟩
  have hgiven : idOf s (Payload.strip excluded v) = .ok (some id) := by rw [hid, ← h]
  exact converted_of_idOf hgiven

theorem forall₂_of_parsedAll : ∀ {texts : List String} {ps : List Parsed}, parsedAll excluded s texts = .ok ps →
    List.Forall₂ (fun text p => parsedOf excluded s text = .ok p) texts ps
  | [], _, h => by
    cases h
    exact .nil
  | t :: ts, ps, h => by
    rw [parsedAll] at h
    split at h
    · cases h
    · rename_i p hone
      obtain ⟨rest, hrest, rfl⟩ := map_eq_ok.mp h
      exact .cons hone (forall₂_of_parsedAll hrest)

theorem wasRead_of_parsedAll {texts : List String} {ps : List Parsed} (h : parsedAll excluded s texts = .ok ps) :
    ∀ p ∈ ps, WasRead excluded s p := by
  have hread := forall₂_of_parsedAll h
  clear h
  induction hread with
  | nil => exact nofun
  | cons hone _ ih => exact List.forall_mem_cons.mpr ⟨wasRead_of_parsedOf hone, ih⟩

end Session

end DocStore
