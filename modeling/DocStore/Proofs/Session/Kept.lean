import DocStore.Proofs.Coherence.Session
import DocStore.Proofs.Database
import DocStore.Proofs.Session.Prepared

/-! What sessions keep. A property that the operations of a database keep is kept by the reads of its sessions; it is
    kept by whatever a session does, if it is kept by each of the writes by which a session comes to the store. -/

namespace DocStore

open Cache (Provider)

namespace Session

/-- An id that a call gives for a structure to be inserted. -/
def Call.Gives (id : DocId) : Call → Prop
  | .insert _ item => item.id? = some id
  | .insertMany _ items => ∃ item ∈ items, item.id? = some id
  | _ => False

/-- A property that the writes of a session to the set of a schema keep, if what is inserted has ids that are good and
    documents that are fit. -/
structure Keeping (ses : Session) (s : Schema) (good : DocId → Prop) (fit : Json → Prop) (I : Database → Prop) :
    Prop where
  guids : ∀ {db} guids, I db → I { db with guids }
  /-- ids that are not given as ids are good -/
  converted : ∀ {raw id}, convert s raw = .ok id → (∀ i, raw ≠ .id i) → good id
  handedOut : s.idType = .guid → ∀ n, good (.guid (Guid.inSequence n))
  stripped : ∀ {db} document, I db → fit (Payload.strip db.config.excluded document)
  reserve : ∀ count, Step.Keeps I (Database.onStore (ses.client.reserve s count))
  insert : ∀ {document id payload es}, fit document → good id → Payload.withId s document id = .ok (payload, es) →
    Step.Keeps I (ses.onStore (Store.insert s id payload es))
  replace : ∀ {document id payload es}, fit document → id.idType = s.idType →
    Payload.withId s document id = .ok (payload, es) → Step.Keeps I (ses.onStore (Store.replace s id payload es))
  deleteMany : ∀ {ids}, (∀ id ∈ ids, id.idType = s.idType) → Step.Keeps I (ses.onStore (Store.deleteMany s ids))
  deleteInterval : ∀ low high, Step.Keeps I (ses.onStore (Store.deleteInterval s low high))

variable {types : Schema → Prop} {I : Database → Prop} (hI : Database.Invariant types I) {ses : Session} {k : Kind}

/-! ### Reads -/

theorem reading_keeps {α : Type} {m : Store.Do α} (hread : ∀ st, (m st).2 = st) : Step.Keeps I (ses.onStore m) := by
  refine .of_reads fun db => ?_
  show { db with store := (ses.client.guarded m db.store).2 } = db
  rw [ses.client.guarded_reads (hread db.store)]

section
include hI

/-- A read through the cache leaves the store as it is. -/
theorem consuming_keeps {α : Type} {plain : Store.Do α} {cached : Step Error (Provider × Store) α}
    (hplain : ∀ st, (plain st).2 = st)
    (hcached : ∀ J : Store → Prop, Step.Keeps (fun x : Provider × Store => J x.2) cached) :
    Step.Keeps I (Database.consuming plain cached) := by
  refine .of_state fun db hdb => ?_
  rw [Database.consuming]
  split
  · show I { db with store := (plain db.store).2 }
    rw [hplain]
    exact hdb
  · rename_i p _
    have hstore : (cached (p, db.store)).2.2 = db.store := (hcached (· = db.store) (p, db.store) rfl).1
    show I { db with cache := some (cached (p, db.store)).2.1, store := (cached (p, db.store)).2.2 }
    rw [hstore]
    exact hI.withCache _ hdb

variable (hk : ∀ {s}, k.schema = .ok s → types s)
include hk

theorem getAs_keeps (raw : RawId) (v : View) : Step.Keeps I (ses.getAs k raw v) := by
  have hget : Step.Keeps I (ses.get k raw) := .andThen (hI.prepare ses hk).keeps fun s => .andThen (.checked _) fun id =>
    consuming_keeps hI (fun _ => ses.client.guarded_reads rfl) fun _ => Provider.consume_keeps (ses.fetcher_keeps s) _ _ _
  refine .andThen hget fun payload => ?_
  split
  · exact .pure trivial
  · exact .andThen (.checked _) fun _ => .pure trivial

theorem getManyAs_keeps (raws : List RawId) (v : View) : Step.Keeps I (ses.getManyAs k raws v) := by
  have hget : Step.Keeps I (ses.getMany k raws) := .andThen (hI.prepare ses hk).keeps fun s =>
    .andThen (.checked _) fun ids => consuming_keeps hI (ses.fetchInOrder_reads s ids) fun _ =>
      Provider.consumeMany_keeps (ses.fetcher_keeps s) _ _ _
  exact .andThen hget fun _ => .checked _

theorem holds_keeps (raw : RawId) : Step.Keeps I (ses.holds k raw) :=
  .andThen (hI.prepare ses hk).keeps fun s => .andThen (.checked _) fun _ =>
    consuming_keeps hI (fun _ => ses.client.guarded_reads rfl) fun _ => Provider.exists?_keeps (ses.fetcher_keeps s) _ _ _

theorem getInterval_keeps (low high : RawId) : Step.Keeps I (ses.getInterval k low high) :=
  .andThen (hI.prepare ses hk).keeps fun _ => .andThen (.checked _) fun _ => .andThen (.checked _) fun _ =>
    .andThen (.checked _) fun _ => .andThen (reading_keeps fun _ => rfl) fun _ => .checked _

theorem queryAs_keeps (q : Query) (v : View) : Step.Keeps I (ses.queryAs k q v) := by
  have hquery : Step.Keeps I (ses.query k q) := by
    refine .andThen (hI.prepare ses hk).keeps fun s => ?_
    split
    · exact reading_keeps fun _ => rfl
    · exact .andThen (.checked _) fun _ => reading_keeps fun _ => rfl
  exact .andThen hquery fun _ => .checked _

theorem count_keeps (q : Query) : Step.Keeps I (ses.count k q) := by
  refine .andThen (hI.prepare ses hk).keeps fun s => ?_
  split
  · exact reading_keeps fun _ => rfl
  · exact .andThen (.checked _) fun _ => reading_keeps fun _ => rfl

theorem rawAs_keeps (q : RawQuery) (v : View) : Step.Keeps I (ses.rawAs k q v) := by
  have hraw : Step.Keeps I (ses.raw k q) := by
    unfold raw
    split
    · exact .fail _
    · exact .andThen (hI.prepare ses hk).keeps fun _ => reading_keeps fun _ => rfl
  exact .andThen hraw fun _ => .checked _

end

/-! ### Inserting -/

section
variable {s : Schema} {good : DocId → Prop} {fit : Json → Prop} (h : ses.Keeping s good fit I)
include h

theorem assignBlock_ensures (count : Nat) : Step.Ensures I (ses.assignBlock s count) fun ids => ∀ id ∈ ids, good id := by
  unfold assignBlock
  split
  · exact .fail _
  · refine .andThen (h.reserve count) fun first => .ofExcept fun ids hids id hid => ?_
    obtain ⟨raw, hraw, hconvert⟩ := mem_convertAll hids id hid
    obtain ⟨i, -, rfl⟩ := List.mem_map.mp hraw
    exact h.converted hconvert fun _ => nofun

theorem assignIds_ensures (count : Nat) : Step.Ensures I (ses.assignIds s count) fun ids => ∀ id ∈ ids, good id := by
  unfold assignIds
  split
  · exact .pure nofun
  · split
    · rename_i hguid
      refine .change fun db hdb => ⟨h.guids _ hdb, fun id hid => ?_⟩
      obtain ⟨i, -, rfl⟩ := List.mem_map.mp hid
      exact h.handedOut hguid _
    · exact assignBlock_ensures h count
    · exact assignBlock_ensures h count
    · exact .fail _

/-- The document of an item is fit as it is written. -/
theorem documentOf_ensures (item : Item) : Step.Ensures I (documentOf item) fit := by
  refine .state fun db hdb => .ofExcept fun document hdocument => ?_
  obtain ⟨v, -, rfl⟩ := Item.written_eq_ok.mp (mapError_eq_ok.mp hdocument)
  exact h.stripped v hdb

variable (hcache : ∀ {db} cache, I db → I { db with cache })
include hcache

theorem writeDocument_keeps {document : Json} (hdoc : fit document) {id : DocId} (hid : good id) :
    Step.Keeps I (ses.writeDocument s document id) := by
  have hwithId : Step.Ensures I (Step.ofExcept ((Payload.withId s document id).mapError Error.validation)) fun x =>
      Payload.withId s document id = .ok x :=
    .ofExcept fun _ hx => mapError_eq_ok.mp hx
  exact hwithId.bind fun _ hx => .andThen (h.insert hdoc hid hx) fun _ => Database.onCache_keeps hcache _

theorem insertItem_keeps (item : Item) {id : DocId} (hid : good id) : Step.Keeps I (ses.insertItem s item id) :=
  (documentOf_ensures h item).bind fun _ hdoc => writeDocument_keeps h hcache hdoc hid

theorem insertEach_keeps : ∀ {items : List Item} {assigned : List DocId},
    (∀ item ∈ items, ∀ i, item.id? = some i → ∀ id, convert s (.id i) = .ok id → good id) →
    (∀ id ∈ assigned, good id) → Step.Keeps I (ses.insertEach s items assigned)
  | [], _, _, _ => .pure trivial
  | item :: items, assigned, hitems, hassigned => by
    obtain ⟨hitem, hitems⟩ := List.forall_mem_cons.mp hitems
    rw [insertEach.eq_def]
    dsimp only
    split
    · rename_i i hi
      refine .bind (.ofExcept (hitem i hi)) fun id hid => ?_
      refine .andThen (insertItem_keeps h hcache item hid) fun _ => ?_
      exact .andThen (insertEach_keeps hitems hassigned) fun _ => .pure trivial
    · obtain ⟨hid, hassigned⟩ := List.forall_mem_cons.mp hassigned
      refine .andThen (insertItem_keeps h hcache item hid) fun _ => ?_
      exact .andThen (insertEach_keeps hitems hassigned) fun _ => .pure trivial
    · exact .fail _

theorem writeEach_keeps : ∀ {ps : List Parsed} {assigned : List DocId},
    (∀ p ∈ ps, fit p.document ∧ ∀ id, p.id? = some id → good id) → (∀ id ∈ assigned, good id) →
    Step.Keeps I (ses.writeEach s ps assigned)
  | [], _, _, _ => .pure trivial
  | p :: ps, assigned, hps, hassigned => by
    obtain ⟨⟨hdoc, hgiven⟩, hps⟩ := List.forall_mem_cons.mp hps
    rw [writeEach.eq_def]
    dsimp only
    split
    · rename_i id hid
      refine .andThen (writeDocument_keeps h hcache hdoc (hgiven id hid)) fun _ => ?_
      exact .andThen (writeEach_keeps hps hassigned) fun _ => .pure trivial
    · obtain ⟨hid, hassigned⟩ := List.forall_mem_cons.mp hassigned
      refine .andThen (writeDocument_keeps h hcache hdoc hid) fun _ => ?_
      exact .andThen (writeEach_keeps hps hassigned) fun _ => .pure trivial
    · exact .fail _

end

theorem onlyId_keeps (ids : List DocId) : Step.Keeps I (onlyId ids) := by
  unfold onlyId
  split
  · exact .pure trivial
  · exact .fail _

section
variable {good : Schema → DocId → Prop} {fit : Json → Prop} (h : ∀ {s}, types s → ses.Keeping s (good s) fit I)
  (hk : ∀ {s}, k.schema = .ok s → types s)
include hI h hk

theorem insertMany_keeps {items : List Item} (hitems : ∀ {s}, types s → ∀ item ∈ items, ∀ i, item.id? = some i →
    ∀ id, convert s (.id i) = .ok id → good s id) : Step.Keeps I (ses.insertMany k items) := by
  unfold insertMany
  split
  · exact .fail _
  · exact (hI.prepare ses hk).bind fun s hs =>
      (assignIds_ensures (h hs) _).bind fun _ hids => insertEach_keeps (h hs) hI.withCache (hitems hs) hids

theorem insertManyJson_keeps (texts : List String) : Step.Keeps I (ses.insertManyJson k texts) := by
  unfold insertManyJson
  split
  · exact .fail _
  · refine (hI.prepare ses hk).bind fun s hs => .state fun db hdb => ?_
    have hread : Step.Ensures I (Step.ofExcept (parsedAll db.config.excluded s texts)) fun ps =>
        ∀ p ∈ ps, fit p.document ∧ ∀ id, p.id? = some id → good s id := by
      refine .ofExcept fun ps hps p hp => ?_
      have hp := wasRead_of_parsedAll hps p hp
      refine ⟨hp.stripped ▸ (h hs).stripped p.document hdb, fun id hid => ?_⟩
      obtain ⟨v, hv⟩ := hp.converted id hid
      exact (h hs).converted hv fun _ => nofun
    exact hread.bind fun _ hps => (assignIds_ensures (h hs) _).bind fun _ hids =>
      writeEach_keeps (h hs) hI.withCache hps hids

/-! ### Replacing and deleting -/

theorem update_keeps (item : Item) : Step.Keeps I (ses.update k item) := by
  refine (hI.prepare ses hk).bind fun s hs => ?_
  split
  · exact .fail _
  · have hconvert {raw : RawId} : Step.Ensures I (Step.ofExcept (convert s raw)) fun id => id.idType = s.idType :=
      .ofExcept fun _ hid => idType_convert hid
    refine hconvert.bind fun id hid => (documentOf_ensures (h hs) item).bind fun document hdoc => ?_
    have hwithId : Step.Ensures I
        (Step.ofExcept ((Payload.withId s document id).mapError Error.validation)) fun x =>
          Payload.withId s document id = .ok x :=
      .ofExcept fun _ hx => mapError_eq_ok.mp hx
    refine hwithId.bind fun x hx => .andThen ((h hs).replace hdoc hid hx) fun _ => ?_
    exact Database.onCache_keeps hI.withCache _

theorem deleteMany_keeps (raws : List RawId) : Step.Keeps I (ses.deleteMany k raws) := by
  refine (hI.prepare ses hk).bind fun s hs => ?_
  have hconvert : Step.Ensures I (Step.ofExcept (convertSome s raws)) fun ids => ∀ id ∈ ids, id.idType = s.idType :=
    .ofExcept fun _ hids => idType_convertAll (convertSome_eq_ok hids).1
  refine hconvert.bind fun ids hids => .andThen ((h hs).deleteMany hids) fun _ => ?_
  exact .andThen (Database.onCache_keeps hI.withCache _) fun _ => .pure trivial

theorem deleteInterval_keeps (low high : RawId) : Step.Keeps I (ses.deleteInterval k low high) := by
  refine (hI.prepare ses hk).bind fun s hs => .andThen (.checked _) fun _ => .andThen (.checked _) fun low => ?_
  refine .andThen (.checked _) fun high => .andThen ((h hs).deleteInterval low high) fun _ => ?_
  exact .andThen (Database.onCache_keeps hI.withCache _) fun _ => .pure trivial

theorem deleteQuery_keeps (p : Predicate) : Step.Keeps I (ses.deleteQuery k p) := by
  refine (hI.prepare ses hk).bind fun s hs => .andThen (.checked _) fun f => ?_
  have hfound : Step.Ensures I (ses.onStore (Store.idsWhere s f)) fun ids => ∀ id ∈ ids, id.idType = s.idType := by
    refine fun db hdb => ⟨(reading_keeps (fun _ => rfl) db hdb).1, fun ids hids => ?_⟩
    exact Store.idType_idsWhere (congrArg Prod.fst (Store.Client.guarded_eq_ok (Prod.ext hids rfl)))
  refine hfound.bind fun ids hids => ?_
  split
  · exact .pure trivial
  · refine .andThen ((h hs).deleteMany hids) fun _ => ?_
    exact .andThen (Database.onCache_keeps hI.withCache _) fun _ => .pure trivial

end

/-! ### Whole calls -/

include hI in
/-- Whatever a session is asked to do, it keeps what its writes keep, if the ids that it is given are good. -/
theorem perform_keeps {good : Schema → DocId → Prop} {fit : Json → Prop}
    (h : ∀ {s}, types s → ses.Keeping s (good s) fit I) {c : Call} (hk : ∀ {s}, c.kind.schema = .ok s → types s)
    (hgiven : ∀ {s i id}, types s → c.Gives i → convert s (.id i) = .ok id → good s id) :
    Step.Keeps I (ses.perform c) := by
  cases c with
  | schema k => exact .map (hI.prepare ses hk).keeps
  | get k raw v => exact .map (getAs_keeps hI hk raw v)
  | getMany k raws v => exact .map (getManyAs_keeps hI hk raws v)
  | holds k raw => exact .map (holds_keeps hI hk raw)
  | getInterval k low high => exact .map (getInterval_keeps hI hk low high)
  | query k q v => exact .map (queryAs_keeps hI hk q v)
  | count k q => exact .map (count_keeps hI hk q)
  | countAll k => exact .map (count_keeps hI hk {})
  | raw k q v => exact .map (rawAs_keeps hI hk q v)
  | insert k item =>
    refine .map (.andThen (insertMany_keeps hI h hk fun hs item' hin i hi id hid => ?_) onlyId_keeps)
    exact hgiven hs (List.mem_singleton.mp hin ▸ hi) hid
  | insertMany k items =>
    exact .map (insertMany_keeps hI h hk fun hs item hin i hi id hid => hgiven hs ⟨item, hin, hi⟩ hid)
  | insertJson k text => exact .map (.andThen (insertManyJson_keeps hI h hk [text]) onlyId_keeps)
  | insertManyJson k texts => exact .map (insertManyJson_keeps hI h hk texts)
  | update k item => exact .map (update_keeps hI h hk item)
  | delete k raw => exact .map (.andThen (deleteMany_keeps hI h hk [raw]) fun _ => .pure trivial)
  | deleteMany k raws => exact .map (deleteMany_keeps hI h hk raws)
  | deleteInterval k low high => exact .map (deleteInterval_keeps hI h hk low high)
  | deleteQuery k p => exact .map (deleteQuery_keeps hI h hk p)

end Session

end DocStore
