import DocStore.Proofs.Database
import DocStore.Proofs.Session.Prepared
import DocStore.Proofs.Session.Texts

/-! Items and their texts. Inserting the texts of items does what inserting the items does: the one reads all texts before
    the first is written, the other converts and strips item by item, but what is read from the text of an item is what
    is made of the item. -/

namespace DocStore

/-- A document says which id a structure has: the id that the member for it is read as, or none at all. -/
def Json.Carries (v : Json) (s : Schema) (id? : Option DocId) : Prop :=
  match id? with
  | none => v.member? idMember = none ∨ v.member? idMember = some .null
  | some id => ∃ m, v.member? idMember = some m ∧ DocId.convert (.json m) s.idType = .ok id

/-- An item that its text tells: it serializes to an object that can be read back, with the id that the item has. -/
inductive Item.ToldByText (excluded : List String) (s : Schema) : Item → Prop
  | intro {v : Json} {id? : Option DocId} (object : v.isObject = true)
      (readBack : Json.ofText? (Payload.serialize excluded v) = some (Payload.strip excluded v))
      (carries : v.Carries s id?) : ToldByText excluded s ⟨.ok v, id?⟩

namespace Payload

variable {excluded : List String}

theorem isObject_strip (v : Json) : (strip excluded v).isObject = v.isObject := by
  cases v <;> rfl

theorem member?_strip {m : String} (hm : m ∉ excluded) (v : Json) : (strip excluded v).member? m = v.member? m := by
  cases v with
  | object ms =>
    rw [strip, Json.member?, Json.member?, List.find?_filter]
    congr 1
    refine List.find?_congr fun x _ => ?_
    by_cases hx : x.1 = m
    · simp [hx, hm]
    · simp [hx]
  | _ => rfl

end Payload

namespace DocId

theorem convert_id (id : DocId) : convert (.id id) id.idType = .ok id := by
  cases id <;> rfl

theorem ofJson_integer {n : Int} (hpos : 0 < n) (hle : n ≤ Text.maxInt64) (t : IdType) :
    ofJson (.integer n) t = ofInt n t := by
  have hlong : Text.isInt64 n = true := by
    rw [Text.isInt64, Bool.and_eq_true, decide_eq_true_eq, decide_eq_true_eq]
    simp only [Text.minInt64]
    omega
  simp only [Json.integer, ofJson, Json.int64?, if_pos hlong]

/-- The member that is written for a valid id is read as that id. -/
theorem convert_toJson {id : DocId} (h : id.IsValid) : convert (.json id.toJson) id.idType = .ok id := by
  have hback := idOf_datum_of_isValid h
  rw [idOf_datum_eq, mapError_eq_ok, convert_eq_ok] at hback
  rw [convert_eq_ok, ← hback]
  cases id with
  | identity n => exact ofJson_integer h.1 (h.2.trans (by decide)) .identity
  | bigIdentity n => exact ofJson_integer h.1 h.2 .bigIdentity
  | guid g | string s => rfl

end DocId

namespace Session

variable {excluded : List String} {ses : Session} {s : Schema} {k : Kind}

/-- An item is written as what was read, under the id that was read with it. -/
structure WrittenAs (excluded : List String) (i : Item) (p : Parsed) : Prop where
  document : i.written excluded = .ok p.document
  id? : i.id? = p.id?

theorem idOf_eq_ok {document v : Json} {id : DocId} (hv : document.member? idMember = some v)
    (hconvert : DocId.convert (.json v) s.idType = .ok id) : idOf s document = .ok (some id) := by
  have hgiven : convert s (.json v) = .ok id := mapError_eq_ok.mpr hconvert
  rw [idOf, hv]
  cases v with
  | null => cases hconvert
  | _ => exact map_eq_ok.mpr ⟨id, hgiven, rfl⟩

/-- The text of an item is read as what is written for the item. -/
theorem parsedOf_text (hid : idMember ∉ excluded) {i : Item} (h : i.ToldByText excluded s) {text : String}
    (htext : i.text excluded = .ok text) : ∃ p, parsedOf excluded s text = .ok p ∧ WrittenAs excluded i p := by
  obtain @⟨v, id?, hobject, hback, hcarries⟩ := h
  obtain rfl : Payload.serialize excluded v = text := Except.ok.inj htext
  have hparse : Payload.parse excluded (Payload.serialize excluded v) = .ok (Payload.strip excluded v) := by
    rw [Payload.parse, Payload.read, hback]
    exact congrArg Except.ok (Payload.strip_strip ..)
  have hgiven : idOf s (Payload.strip excluded v) = .ok id? := by
    unfold Json.Carries at hcarries
    split at hcarries
    · rw [idOf, Payload.member?_strip hid]
      rcases hcarries with h | h <;> rw [h]
    · obtain ⟨m, hm, hconvert⟩ := hcarries
      exact idOf_eq_ok ((Payload.member?_strip hid _).trans hm) hconvert
  refine ⟨⟨Payload.strip excluded v, id?⟩, ?_, rfl, rfl⟩
  refine bind_eq_ok.mpr ⟨_, mapError_eq_ok.mpr hparse, guard_eq_ok.mpr ⟨?_, bind_eq_ok.mpr ⟨_, hgiven, rfl⟩⟩⟩
  rw [Payload.isObject_strip, hobject]
  exact Bool.false_ne_true

theorem parsedAll_texts (hid : idMember ∉ excluded) {items : List Item} {texts : List String}
    (htexts : List.Forall₂ (fun i text => i.text excluded = .ok text) items texts)
    (hitems : ∀ i ∈ items, i.ToldByText excluded s) :
    ∃ ps, parsedAll excluded s texts = .ok ps ∧ List.Forall₂ (WrittenAs excluded) items ps := by
  induction htexts with
  | nil => exact ⟨[], rfl, .nil⟩
  | cons htext _ ih =>
    obtain ⟨hi, hitems⟩ := List.forall_mem_cons.mp hitems
    obtain ⟨p, hp, hwritten⟩ := parsedOf_text hid hi htext
    obtain ⟨ps, hps, hrest⟩ := ih hitems
    refine ⟨p :: ps, ?_, .cons hwritten hrest⟩
    rw [parsedAll, hp]
    dsimp only
    rw [hps]
    rfl

/-! ### One after the other -/

theorem Confined.config {α : Type} {m : Database.Do α} (hm : ses.Confined s m) {db db' : Database} {r : Except Error α}
    (h : m db = (r, db')) : db'.config = db.config := by
  obtain ⟨run, cache, guids, -, hend⟩ := hm db
  rw [h] at hend
  cases hend
  rfl

/-- Nothing that is done with a database changes its configuration. -/
theorem invariant_config (config : Config) : Database.Invariant (fun _ => True) fun db => db.config = config := by
  have hclear (m : Cache.Provider.Do Unit) : Step.Keeps (fun db : Database => db.config = config) (Database.onCache m) :=
    Database.onCache_keeps (fun _ h => h) m
  have hstore {α : Type} (m : Store.Do α) : Step.Keeps (fun db : Database => db.config = config) (Database.onStore m) :=
    .of_state fun _ h => h
  exact {
    registry := fun _ _ _ => trivial
    withRegistry := fun h _ => h
    withCache := fun _ h => h
    manage := fun c => .andThen (.andThen (hclear _) fun _ => .update fun _ h => h) fun _ => hstore _
    upsertWith := fun _ c => .andThen (hclear _) fun _ => .andThen (hstore _) fun _ => .update fun _ h => h
    dropSchema := fun _ => .andThen (hclear _) fun _ => .andThen (hstore _) fun _ => .update fun _ h => h }

theorem prepare_config (ses : Session) (k : Kind) (db : Database) : (ses.prepare k db).2.config = db.config :=
  ((invariant_config db.config).prepare ses (fun _ => trivial) db rfl).1

/-- Items are inserted as what is written for them, if the ids that they have are of the type. -/
theorem writeEach_eq_insertEach {items : List Item} {ps : List Parsed}
    (hwritten : List.Forall₂ (WrittenAs excluded) items ps)
    (htypes : ∀ p ∈ ps, ∀ id, p.id? = some id → id.idType = s.idType) {db : Database}
    (hexcluded : db.config.excluded = excluded) (assigned : List DocId) :
    ses.writeEach s ps assigned db = ses.insertEach s items assigned db := by
  induction hwritten generalizing db assigned with
  | nil => rfl
  | @cons i p items ps hone _ ih =>
    obtain ⟨hp, hps⟩ := List.forall_mem_cons.mp htypes
    -- once this item is written, the configuration is still the same and the others follow
    have hwrite (id : DocId) (assigned : List DocId) :
        (ses.writeDocument s p.document id >>= fun _ =>
          ses.writeEach s ps assigned >>= fun ids => pure (id :: ids)) db =
        (ses.insertItem s i id >>= fun _ =>
          ses.insertEach s items assigned >>= fun ids => pure (id :: ids)) db := by
      rw [Step.bind_apply, Step.bind_apply, insertItem_eq (hexcluded.symm ▸ hone.document)]
      cases hw : ses.writeDocument s p.document id db with
      | mk r db' =>
        cases r with
        | error e => rfl
        | ok u =>
          have hconfig := (enclosed_writeDocument p.document id).confined.config hw
          have hrest := ih hps ((congrArg Config.excluded hconfig).trans hexcluded) assigned
          dsimp only at hrest ⊢
          rw [Step.bind_apply, Step.bind_apply, hrest]
    cases hid : p.id? with
    | some id =>
      have hconvert : convert s (.id id) = .ok id := by
        rw [convert, ← hp id hid, DocId.convert_id]
        rfl
      simp only [writeEach, insertEach, hone.id?, hid, hconvert]
      exact hwrite id assigned
    | none =>
      cases assigned with
      | nil => simp only [writeEach, insertEach, hone.id?, hid]
      | cons id assigned =>
        simp only [writeEach, insertEach, hone.id?, hid]
        exact hwrite id assigned

/-! ### Whole batches -/

theorem missing_writtenAs {items : List Item} {ps : List Parsed} (h : List.Forall₂ (WrittenAs excluded) items ps) :
    (ps.filter fun p => p.id?.isNone).length = (items.filter fun i => i.id?.isNone).length := by
  induction h with
  | nil => rfl
  | cons hone _ ih =>
    rw [List.filter_cons, List.filter_cons, hone.id?]
    split
    · rw [List.length_cons, List.length_cons, ih]
    · exact ih

/-- Texts are inserted as the items that what they were read as is written for. -/
theorem insertManyJson_of_read {db db₁ : Database} {texts : List String} {items : List Item} {ps : List Parsed}
    (hne : items ≠ []) (hprepared : ses.prepare k db = (.ok s, db₁))
    (hread : parsedAll db₁.config.excluded s texts = .ok ps)
    (hwritten : List.Forall₂ (WrittenAs db₁.config.excluded) items ps) :
    ses.insertManyJson k texts db = ses.insertMany k items db := by
  have hps : ps ≠ [] := fun hnil => hne (List.forall₂_nil_right_iff.mp (hnil ▸ hwritten))
  have htexts : texts ≠ [] := fun hnil => hps (List.forall₂_nil_left_iff.mp (hnil ▸ forall₂_of_parsedAll hread))
  have hparsed : Step.ofExcept (parsedAll db₁.config.excluded s texts) db₁ = (.ok ps, db₁) := by
    rw [hread]
    rfl
  rw [insertManyJson, insertMany, List.isEmpty_eq_false_iff.mpr htexts, List.isEmpty_eq_false_iff.mpr hne,
    if_neg Bool.false_ne_true, if_neg Bool.false_ne_true, Step.bind_ok hprepared, Step.bind_ok hprepared]
  show (Step.ofExcept _ >>= _ : Database.Do _) db₁ = ses.insertItems s items db₁
  rw [Step.bind_ok hparsed, missing_writtenAs hwritten, insertItems, Step.bind_apply, Step.bind_apply]
  cases ha : ses.assignIds s (items.filter fun i => i.id?.isNone).length db₁ with
  | mk r db₂ =>
    cases r with
    | error e => rfl
    | ok assigned =>
      have hconfig := congrArg Config.excluded ((enclosed_assignIds _).confined.config ha)
      exact writeEach_eq_insertEach hwritten (fun p hp => (wasRead_of_parsedAll hread p hp).idType) hconfig assigned

/-- Inserting the texts of some items answers what inserting the items answers and leaves the same database, in every
    state and whatever comes in between: ids that are given or missing in any order, rows that are refused, a cache. -/
theorem insertManyJson_serialize (ses : Session) (k : Kind) (db : Database) {items : List Item} {texts : List String}
    (hne : items ≠ []) (htexts : List.Forall₂ (fun i text => i.text db.config.excluded = .ok text) items texts)
    (hid : idMember ∉ db.config.excluded)
    (hitems : ∀ s, (ses.prepare k db).1 = .ok s → ∀ i ∈ items, i.ToldByText db.config.excluded s) :
    ses.insertManyJson k texts db = ses.insertMany k items db := by
  have hconfig := prepare_config ses k db
  cases hprepare : ses.prepare k db with
  | mk r db₁ =>
    rw [hprepare] at hconfig hitems
    cases r with
    | error e =>
      have hsome : texts ≠ [] := fun hnil => hne (List.forall₂_nil_right_iff.mp (hnil ▸ htexts))
      rw [insertManyJson, insertMany, List.isEmpty_eq_false_iff.mpr hsome, List.isEmpty_eq_false_iff.mpr hne,
        if_neg Bool.false_ne_true, if_neg Bool.false_ne_true, Step.bind_error hprepare, Step.bind_error hprepare]
    | ok s =>
      obtain ⟨ps, hread, hwritten⟩ := parsedAll_texts hid htexts (hitems s rfl)
      have hsame : db₁.config.excluded = db.config.excluded := congrArg Config.excluded hconfig
      rw [← hsame] at hread hwritten
      exact insertManyJson_of_read hne hprepare hread hwritten

/-- A type of books that are numbered. -/
def bookKind : Kind where
  ns := ""
  name := "Book"
  idType := .identity
  describe := (·.declareAll [.member "Title" .string false false])
  read? _ := none

/-- A book with its number, one whose number is null, and one without a number. -/
def books : List Item :=
  [⟨.ok (.object [("Draft", .bool true), ("StructureId", .integer 5), ("Title", .string "a")]), some (.identity 5)⟩,
    ⟨.ok (.object [("StructureId", .null)]), none⟩, ⟨.ok (.object []), none⟩]

/-- The books without their drafts, as texts. -/
def bookTexts : List String :=
  ["\x7b\"StructureId\":5,\"Title\":\"a\"\x7d", "\x7b\"StructureId\":null\x7d", "\x7b\x7d"]

/-- Books leave out whether they are drafts. -/
def bookDatabase : Database := (Database.manage .create { config := { excluded := ["Draft"] } }).2

theorem books_toldByText {s : Schema} (hs : s.idType = .identity) : ∀ i ∈ books, i.ToldByText ["Draft"] s := by
  have hnumber : Json.Number.ofDecimal? ⟨false, ['5'], none, none⟩ = some (.integer 5) := by decide +kernel
  intro i hi
  simp only [books, List.mem_cons, List.not_mem_nil, or_false] at hi
  rcases hi with rfl | rfl | rfl
  · refine ⟨rfl, ?_, ?_⟩
    · have htokens : Json.Token.ofText? (Payload.serialize ["Draft"] (.object
          [("Draft", .bool true), ("StructureId", .integer 5), ("Title", .string "a")])).toList =
          some [.beginObject, .string (some "StructureId"), .colon, .number ⟨false, ['5'], none, none⟩, .comma,
            .string (some "Title"), .colon, .string (some "a"), .endObject] := by decide +kernel
      have htree : Json.Tree.ofTokens? [.beginObject, .string (some "StructureId"), .colon,
          .number ⟨false, ['5'], none, none⟩, .comma, .string (some "Title"), .colon, .string (some "a"), .endObject] =
          some (.object [(some "StructureId", .number ⟨false, ['5'], none, none⟩), (some "Title", .string (some "a"))]) :=
        rfl
      rw [Json.ofText?, Json.Tree.ofText?, htokens, Option.bind_some, htree, Option.bind_some, Json.maxDepth,
        Json.ofTree?]
      simp only [Json.membersOfTrees?, Json.ofTree?, hnumber]
      rfl
    · have hvalid : (DocId.identity 5).IsValid := ⟨by decide, by decide⟩
      exact ⟨_, rfl, hs ▸ DocId.convert_toJson hvalid⟩
  · refine ⟨rfl, ?_, Or.inr rfl⟩
    have htokens : Json.Token.ofText? (Payload.serialize ["Draft"] (.object [("StructureId", .null)])).toList =
        some [.beginObject, .string (some "StructureId"), .colon, .null, .endObject] := by decide +kernel
    rw [Json.ofText?, Json.Tree.ofText?, htokens]
    rfl
  · refine ⟨rfl, ?_, Or.inl rfl⟩
    have htokens : Json.Token.ofText? (Payload.serialize ["Draft"] (.object [])).toList =
        some [.beginObject, .endObject] := by decide +kernel
    rw [Json.ofText?, Json.Tree.ofText?, htokens]
    rfl

theorem insertManyJson_serialize_books :
    let ses : Session := { mode := .ignore }
    List.Forall₂ (fun i text => i.text ["Draft"] = .ok text) books bookTexts ∧
      ses.insertManyJson bookKind bookTexts bookDatabase = ses.insertMany bookKind books bookDatabase ∧
      (ses.insertMany bookKind books bookDatabase).1 = .ok [.identity 5, .identity 1, .identity 2] := by
  intro ses
  have htype : (ses.prepare bookKind bookDatabase).1.map (·.idType) = .ok .identity := by decide +kernel
  have htexts : List.Forall₂ (fun i text => i.text ["Draft"] = .ok text) books bookTexts := by
    have hall : books.map (Item.text ["Draft"]) = bookTexts.map .ok := by decide +kernel
    simpa [books, bookTexts] using hall
  refine ⟨htexts, insertManyJson_serialize ses bookKind bookDatabase nofun htexts (by decide) fun s hs => ?_,
    by decide +kernel⟩
  rw [hs] at htype
  exact books_toldByText (Except.ok.inj htype)

end Session

end DocStore
