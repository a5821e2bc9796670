import DocStore.Proofs.Session.Kept

/-! Batches that were accepted. A session that tells ids has inserted structures under them, one after the other, so each
    of them is stored when it has told them. -/

namespace DocStore

open Store (Apart Filed)

/-! ### Structures one after the other -/

namespace Store

/-- Structures inserted into the set of a schema one after the other, under some ids. -/
inductive Inserted (s : Schema) : List DocId → Store → Store → Prop
  | nil (st : Store) : Inserted s [] st st
  | cons {id : DocId} {ids : List DocId} {payload : String} {es : List IndexEntry} {st st₁ st₂ : Store}
      (htype : id.idType = s.idType) (hone : insert s id payload es st = (.ok (), st₁)) (hrest : Inserted s ids st₁ st₂) :
      Inserted s (id :: ids) st st₂

section
variable {types : Schema → Prop} (ha : Apart types) {s : Schema} (hs : types s) {st st' : Store}
include ha hs

/-- A structure that was inserted is stored. -/
theorem payload?_insert (hf : st.Filed types) {id : DocId} (hid : id.idType = s.idType) {payload : String}
    {es : List IndexEntry} {u : Unit} (h : insert s id payload es st = (.ok u, st')) :
    st'.payload? s id = some payload := by
  have hwrote := (insert_writes ha hs hid payload es).ok hf h
  obtain ⟨t, t₁, t₂, hset, hrow, hentries, rfl⟩ := insert_eq_ok h
  have ht := hf.of hs hset
  have hrows := TableSet.insertEntries_sameRows hentries
  obtain ⟨rfl, -⟩ := TableSet.insertRow_eq_ok hrow
  have hstem : folded t₂.stem = folded s.stem := hrows.stem ▸ ht.stem
  have hset' : (st.putSet t₂).set? s = some t₂ := set?_putSet_self hstem
  rw [payload?_of_set? hset', (hwrote.filed.of hs hset').payload?_eq_some, hrows.rows]
  exact ⟨_, List.mem_append_right _ (List.mem_singleton_self _), ht.idDatum hid, rfl⟩

theorem Inserted.wrote {ids : List DocId} (h : Inserted s ids st st') (hf : st.Filed types) :
    Wrote types s.key (fun _ => False) st st' := by
  induction h with
  | nil st => exact .refl hf
  | cons htype hone _ ih =>
    have hfirst := (insert_writes ha hs htype _ _).ok hf hone
    exact hfirst.trans (ih hfirst.filed)

theorem Inserted.stored {ids : List DocId} (h : Inserted s ids st st') (hf : st.Filed types) :
    ∀ id ∈ ids, ∃ payload, st'.payload? s id = some payload := by
  induction h with
  | nil st => exact nofun
  | @cons id ids payload es st st₁ st₂ htype hone hrest ih =>
    have hfiled := ((insert_writes ha hs htype payload es).ok hf hone).filed
    refine List.forall_mem_cons.mpr ⟨⟨payload, ?_⟩, ih hfiled⟩
    -- what is inserted after it does not take it away
    exact (hrest.wrote ha hs hfiled).kept hs htype (fun h => h.2) (payload?_insert ha hs hf htype hone)

end

theorem Inserted.idType {s : Schema} {ids : List DocId} {st st' : Store} (h : Inserted s ids st st') :
    ∀ id ∈ ids, id.idType = s.idType := by
  induction h with
  | nil st => exact nofun
  | cons htype _ _ ih => exact List.forall_mem_cons.mpr ⟨htype, ih⟩

end Store

/-! ### Batches -/

namespace Session

variable {ses : Session} {s : Schema} {k : Kind} {db db' : Database}

theorem writeDocument_eq_ok {document : Json} {id : DocId} {u : Unit}
    (h : ses.writeDocument s document id db = (.ok u, db')) : ∃ payload es,
      Payload.withId s document id = .ok (payload, es) ∧
        Store.insert s id payload es db.store = (.ok (), db'.store) := by
  obtain ⟨⟨payload, es⟩, db₁, hmake, h⟩ := Step.bind_eq_ok.mp h
  obtain ⟨hmade, rfl⟩ := Prod.mk.inj hmake
  obtain ⟨v, db₂, hinsert, h⟩ := Step.bind_eq_ok.mp h
  refine ⟨payload, es, mapError_eq_ok.mp hmade, ?_⟩
  have hstore : db'.store = db₂.store := by
    have hkept := onCache_store (Cache.Provider.removeMany s.key [id]) db₂
    rwa [show Database.onCache (Cache.Provider.removeMany s.key [id]) db₂ = (.ok u, db') from h] at hkept
  have hanswer : (ses.client.guarded (Store.insert s id payload es) db.store).1 = .ok v := congrArg Prod.fst hinsert
  have hleft : (ses.client.guarded (Store.insert s id payload es) db.store).2 = db₂.store :=
    congrArg (fun x => x.2.store) hinsert
  rw [hstore, ← hleft]
  exact Prod.ext (congrArg Prod.fst (Store.Client.guarded_eq_ok (Prod.ext hanswer rfl)))
    (congrArg Prod.snd (Store.Client.guarded_eq_ok (Prod.ext hanswer rfl)))

theorem insertItem_eq_ok {item : Item} {id : DocId} {u : Unit} (h : ses.insertItem s item id db = (.ok u, db')) :
    ∃ payload es, Store.insert s id payload es db.store = (.ok (), db'.store) := by
  cases hdocument : item.written db.config.excluded with
  | error e =>
    rw [insertItem_unserialized hdocument] at h
    cases h
  | ok document =>
    rw [insertItem_eq hdocument] at h
    obtain ⟨payload, es, -, hinsert⟩ := writeDocument_eq_ok h
    exact ⟨payload, es, hinsert⟩

theorem insertEach_eq_ok : ∀ {items : List Item} {assigned : List DocId} {db : Database} {ids : List DocId},
    (∀ id ∈ assigned, id.idType = s.idType) → ses.insertEach s items assigned db = (.ok ids, db') →
    Store.Inserted s ids db.store db'.store
  | [], _, _, _, _, h => by
    cases h
    exact .nil _
  | ⟨_, some i⟩ :: items, assigned, db, ids, hassigned, h => by
    obtain ⟨id, db₁, hread, h⟩ := Step.bind_eq_ok.mp h
    obtain ⟨hconvert, rfl⟩ := Prod.mk.inj hread
    obtain ⟨u, db₂, hwrite, h⟩ := Step.bind_eq_ok.mp h
    obtain ⟨rest, db₃, hrest, h⟩ := Step.bind_eq_ok.mp h
    cases h
    obtain ⟨payload, es, hinsert⟩ := insertItem_eq_ok hwrite
    exact .cons (idType_convert hconvert) hinsert (insertEach_eq_ok hassigned hrest)
  | ⟨_, none⟩ :: items, id :: assigned, db, ids, hassigned, h => by
    obtain ⟨hid, hassigned⟩ := List.forall_mem_cons.mp hassigned
    obtain ⟨u, db₂, hwrite, h⟩ := Step.bind_eq_ok.mp h
    obtain ⟨rest, db₃, hrest, h⟩ := Step.bind_eq_ok.mp h
    cases h
    obtain ⟨payload, es, hinsert⟩ := insertItem_eq_ok hwrite
    exact .cons hid hinsert (insertEach_eq_ok hassigned hrest)

theorem writeEach_eq_ok : ∀ {ps : List Parsed} {assigned : List DocId} {db : Database} {ids : List DocId},
    (∀ p ∈ ps, ∀ id, p.id? = some id → id.idType = s.idType) → (∀ id ∈ assigned, id.idType = s.idType) →
    ses.writeEach s ps assigned db = (.ok ids, db') → Store.Inserted s ids db.store db'.store
  | [], _, _, _, _, _, h => by
    cases h
    exact .nil _
  | ⟨document, some id⟩ :: ps, assigned, db, ids, hps, hassigned, h => by
    obtain ⟨hp, hps⟩ := List.forall_mem_cons.mp hps
    obtain ⟨u, db₂, hwrite, h⟩ := Step.bind_eq_ok.mp h
    obtain ⟨rest, db₃, hrest, h⟩ := Step.bind_eq_ok.mp h
    cases h
    obtain ⟨payload, es, -, hinsert⟩ := writeDocument_eq_ok hwrite
    exact .cons (hp id rfl) hinsert (writeEach_eq_ok hps hassigned hrest)
  | ⟨document, none⟩ :: ps, id :: assigned, db, ids, hps, hassigned, h => by
    obtain ⟨-, hps⟩ := List.forall_mem_cons.mp hps
    obtain ⟨hid, hassigned⟩ := List.forall_mem_cons.mp hassigned
    obtain ⟨u, db₂, hwrite, h⟩ := Step.bind_eq_ok.mp h
    obtain ⟨rest, db₃, hrest, h⟩ := Step.bind_eq_ok.mp h
    cases h
    obtain ⟨payload, es, -, hinsert⟩ := writeDocument_eq_ok hwrite
    exact .cons hid hinsert (writeEach_eq_ok hps hassigned hrest)

theorem idType_assignIds {count : Nat} {ids : List DocId} (h : ses.assignIds s count db = (.ok ids, db')) :
    ∀ id ∈ ids, id.idType = s.idType := by
  have hkeeping : ses.Keeping s (fun id => id.idType = s.idType) (fun _ => True) fun _ => True :=
    ⟨fun _ _ => trivial, fun hid _ => idType_convert hid, fun hguid _ => hguid.symm, fun _ _ => trivial,
      fun _ => .of_state fun _ _ => trivial, fun _ _ _ => .of_state fun _ _ => trivial,
      fun _ _ _ => .of_state fun _ _ => trivial, fun _ => .of_state fun _ _ => trivial,
      fun _ _ => .of_state fun _ _ => trivial⟩
  exact (assignIds_ensures hkeeping count db trivial).2 ids (congrArg Prod.fst h)

/-- What taking new ids keeps is what does not depend on how far identities and GUIDs were counted. -/
theorem assignIds_keeps {I : Database → Prop} (hstore : ∀ {db st}, I db → st.sets = db.store.sets → I { db with store := st })
    (hguids : ∀ {db} n, I db → I { db with guids := n }) (count : Nat) : Step.Keeps I (ses.assignIds s count) := by
  have hsets (st : Store) : Step.Keeps (fun st' : Store => st'.sets = st.sets) (ses.client.reserve s count) :=
    .of_whole (.andThen (fun _ => rfl) fun _ => Store.Client.guarded_whole (.transaction _) ses.client)
      fun hst h => (Store.reserve_sets (Store.Client.reserve_eq_ok h).2).trans hst
  have hreserve : Step.Keeps I (Database.onStore (ses.client.reserve s count)) :=
    .of_state fun db hdb => hstore hdb (hsets db.store db.store rfl).1
  have hblock : Step.Keeps I (ses.assignBlock s count) := by
    unfold assignBlock
    split
    · exact .fail _
    · exact .andThen hreserve fun _ => .checked _
  unfold assignIds
  split
  · exact .pure trivial
  · split
    · exact .change fun _ h => ⟨hguids _ h, trivial⟩
    · exact hblock
    · exact hblock
    · exact .fail _

/-- New ids are taken without writing to any set. -/
theorem assignIds_sets (sets : Assoc String Store.TableSet) (count : Nat) :
    Step.Keeps (fun db : Database => db.store.sets = sets) (ses.assignIds s count) :=
  assignIds_keeps (fun hdb hst => hst.trans hdb) (fun _ hdb => hdb) count

theorem sets_of_assignIds {count : Nat} {ids : List DocId} (h : ses.assignIds s count db = (.ok ids, db')) :
    db'.store.sets = db.store.sets := by
  have hsets := (assignIds_sets db.store.sets count db rfl : _ ∧ ∀ is, (ses.assignIds s count db).1 = .ok is → _).1
  rwa [h] at hsets

/-- A batch is inserted after its type was prepared and its items without ids were given some. -/
theorem insertMany_eq_ok {items : List Item} {ids : List DocId} (h : ses.insertMany k items db = (.ok ids, db')) :
    ∃ s db₁ assigned db₂, ses.prepare k db = (.ok s, db₁) ∧
      ses.assignIds s (items.filter fun i => i.id?.isNone).length db₁ = (.ok assigned, db₂) ∧
      ses.insertEach s items assigned db₂ = (.ok ids, db') := by
  unfold insertMany at h
  split at h
  · cases h
  · obtain ⟨s, db₁, hprepared, h⟩ := Step.bind_eq_ok.mp h
    obtain ⟨assigned, db₂, hassigned, h⟩ := Step.bind_eq_ok.mp h
    exact ⟨s, db₁, assigned, db₂, hprepared, hassigned, h⟩

theorem insertManyJson_eq_ok {texts : List String} {ids : List DocId}
    (h : ses.insertManyJson k texts db = (.ok ids, db')) :
    ∃ s db₁ ps assigned db₂, ses.prepare k db = (.ok s, db₁) ∧
      parsedAll db₁.config.excluded s texts = .ok ps ∧
      ses.assignIds s (ps.filter fun p => p.id?.isNone).length db₁ = (.ok assigned, db₂) ∧
      ses.writeEach s ps assigned db₂ = (.ok ids, db') := by
  unfold insertManyJson at h
  split at h
  · cases h
  · obtain ⟨s, db₁, hprepared, h⟩ := Step.bind_eq_ok.mp h
    obtain ⟨_, _, hstate, h⟩ := Step.bind_eq_ok.mp h
    cases hstate
    obtain ⟨ps, _, htexts, h⟩ := Step.bind_eq_ok.mp h
    obtain ⟨hread, rfl⟩ := Prod.mk.inj htexts
    obtain ⟨assigned, db₂, hassigned, h⟩ := Step.bind_eq_ok.mp h
    exact ⟨s, db₁, ps, assigned, db₂, hprepared, hread, hassigned, h⟩

/-! ### Whole calls -/

/-- Whether a reply tells the id of an inserted structure. -/
def Reply.Tells (id : DocId) : Reply → Prop
  | .id i => i = id
  | .ids is => id ∈ is
  | _ => False

/-- Structures inserted into the set of a prepared type, after new ids were taken for those without one. -/
structure Accepted (ses : Session) (k : Kind) (s : Schema) (ids : List DocId) (db db₁ db' : Database) : Prop where
  prepared : ses.prepare k db = (.ok s, db₁)
  inserted : ∃ st, st.sets = db₁.store.sets ∧ Store.Inserted s ids st db'.store

/-- Each of them is stored in the end, as nothing that was inserted takes away anything. -/
theorem Accepted.stored {types : Schema → Prop} (ha : Apart types) (hs : types s) {ids : List DocId} {db₁ : Database}
    (h : Accepted ses k s ids db db₁ db') (hf : db₁.store.Filed types) :
    ∀ id ∈ ids, id.idType = s.idType ∧ ∃ payload, db'.store.payload? s id = some payload := by
  obtain ⟨st, hsets, hinserted⟩ := h.inserted
  have hfiled : st.Filed types := by
    rw [Store.Filed, hsets]
    exact hf
  exact fun id hid => ⟨hinserted.idType id hid, hinserted.stored ha hs hfiled id hid⟩

theorem accepted_insertMany {items : List Item} {ids : List DocId} (h : ses.insertMany k items db = (.ok ids, db')) :
    ∃ s db₁, Accepted ses k s ids db db₁ db' := by
  obtain ⟨s, db₁, assigned, db₂, hprepared, hassigned, h⟩ := insertMany_eq_ok h
  have hsets := sets_of_assignIds hassigned
  exact ⟨s, db₁, hprepared, db₂.store, hsets, insertEach_eq_ok (idType_assignIds hassigned) h⟩

theorem accepted_insertManyJson {texts : List String} {ids : List DocId}
    (h : ses.insertManyJson k texts db = (.ok ids, db')) : ∃ s db₁, Accepted ses k s ids db db₁ db' := by
  obtain ⟨s, db₁, ps, assigned, db₂, hprepared, hread, hassigned, h⟩ := insertManyJson_eq_ok h
  have hsets := sets_of_assignIds hassigned
  have hps := wasRead_of_parsedAll hread
  exact ⟨s, db₁, hprepared, db₂.store, hsets,
    writeEach_eq_ok (fun p hin => (hps p hin).idType) (idType_assignIds hassigned) h⟩

theorem onlyId_eq_ok {ids : List DocId} {id : DocId} (h : onlyId ids db = (.ok id, db')) : ids = [id] ∧ db' = db := by
  unfold onlyId at h
  split at h <;> cases h
  exact ⟨rfl, rfl⟩

/-- Only what was inserted is told. -/
theorem accepted_of_tells {c : Call} {r : Reply} (h : ses.perform c db = (.ok r, db')) {id : DocId} (hr : r.Tells id) :
    ∃ s ids db₁, id ∈ ids ∧ Accepted ses c.kind s ids db db₁ db' := by
  cases c with
  | insert k item =>
    obtain ⟨i, hone, rfl⟩ := Step.map_eq_ok.mp h
    obtain ⟨ids, db₂, hmany, honly⟩ := Step.bind_eq_ok.mp hone
    obtain ⟨rfl, rfl⟩ := onlyId_eq_ok honly
    obtain ⟨s, db₁, hdone⟩ := accepted_insertMany hmany
    exact ⟨s, _, db₁, hr ▸ List.mem_singleton_self _, hdone⟩
  | insertMany k items =>
    obtain ⟨ids, hmany, rfl⟩ := Step.map_eq_ok.mp h
    obtain ⟨s, db₁, hdone⟩ := accepted_insertMany hmany
    exact ⟨s, ids, db₁, hr, hdone⟩
  | insertJson k text =>
    obtain ⟨i, hone, rfl⟩ := Step.map_eq_ok.mp h
    obtain ⟨ids, db₂, hmany, honly⟩ := Step.bind_eq_ok.mp hone
    obtain ⟨rfl, rfl⟩ := onlyId_eq_ok honly
    obtain ⟨s, db₁, hdone⟩ := accepted_insertManyJson hmany
    exact ⟨s, _, db₁, hr ▸ List.mem_singleton_self _, hdone⟩
  | insertManyJson k texts =>
    obtain ⟨ids, hmany, rfl⟩ := Step.map_eq_ok.mp h
    obtain ⟨s, db₁, hdone⟩ := accepted_insertManyJson hmany
    exact ⟨s, ids, db₁, hr, hdone⟩
  | _ =>
    obtain ⟨a, -, rfl⟩ := Step.map_eq_ok.mp h
    exact hr.elim

end Session

end DocStore
