import DocStore.Proofs.Coherence.Database
import DocStore.Proofs.Session.Texts

/-! What a session does is the same without the cache, and leaves the database coherent: after every write that
    the store accepted, the cache no longer holds what was written over. -/

namespace DocStore.Session

open Cache (Provider)
open Database (Do Coherent CoherentBut Followed Stores Tracked Transparent)
open Store (Writes Apart Filed)

/-- The client of a session is open until the session is disposed of. -/
def Connected (ses : Session) : Prop := ses.disposed = false → ses.client.closed = false

variable {types : Schema → Prop} {ses : Session} {db : Database}

/-! ### Preparing -/

theorem tracked_prepare (ha : Apart types) {k : Kind} (hk : ∀ {s}, k.schema = .ok s → types s)
    (hdb : Coherent types db) :
    Tracked types (fun s db => Coherent types db ∧ types s ∧ ses.disposed = false) (ses.prepare k) db := by
  unfold prepare
  split
  · exact .fail hdb _
  · rename_i hdisposed
    refine (Database.tracked_schemaOf hdb hk).bind fun {s _} h => ?_
    refine (Database.tracked_ensureSchema ha h.2 h.1 ses.client).bind fun h' => ?_
    exact .pure ⟨h', h.2, Bool.eq_false_iff.mpr hdisposed⟩

theorem idType_convert {s : Schema} {raw : RawId} {id : DocId} (h : convert s raw = .ok id) : id.idType = s.idType :=
  DocId.idType_convert (mapError_eq_ok.mp h)

theorem mem_convertAll {s : Schema} : ∀ {raws : List RawId} {ids : List DocId}, convertAll s raws = .ok ids →
    ∀ id ∈ ids, ∃ raw ∈ raws, convert s raw = .ok id
  | [], _, h => by
    cases h
    exact nofun
  | raw :: raws, ids, h => by
    rw [convertAll] at h
    split at h
    · cases h
    · rename_i id hone
      obtain ⟨rest, hrest, rfl⟩ := map_eq_ok.mp h
      intro id' hid'
      rcases List.mem_cons.mp hid' with rfl | hid'
      · exact ⟨raw, List.mem_cons_self .., hone⟩
      · obtain ⟨raw', hin, hraw'⟩ := mem_convertAll hrest id' hid'
        exact ⟨raw', List.mem_cons_of_mem _ hin, hraw'⟩

theorem idType_convertAll {s : Schema} {raws : List RawId} {ids : List DocId} (h : convertAll s raws = .ok ids) :
    ∀ id ∈ ids, id.idType = s.idType := by
  intro id hid
  obtain ⟨raw, -, hraw⟩ := mem_convertAll h id hid
  exact idType_convert hraw

theorem convertSome_eq_ok {s : Schema} {raws : List RawId} {ids : List DocId} (h : convertSome s raws = .ok ids) :
    convertAll s raws = .ok ids ∧ ids ≠ [] := by
  rw [convertSome] at h
  split at h
  · cases h
  · cases h
  · rename_i hne hall
    cases h
    exact ⟨hall, hne⟩

theorem tracked_convert (hdb : Coherent types db) (s : Schema) (raw : RawId) :
    Tracked types (fun id db => Coherent types db ∧ id.idType = s.idType) (Step.ofExcept (convert s raw)) db :=
  .ofExcept hdb fun h => ⟨hdb, idType_convert h⟩

theorem tracked_parsedAll (hdb : Coherent types db) (excluded : List String) (s : Schema) (texts : List String) :
    Tracked types (fun items db => Coherent types db ∧ ∀ i ∈ items, WasRead excluded s i)
      (Step.ofExcept (parsedAll excluded s texts)) db :=
  .ofExcept hdb fun h => ⟨hdb, wasRead_of_parsedAll h⟩

theorem tracked_convertSome (hdb : Coherent types db) (s : Schema) (raws : List RawId) :
    Tracked types (fun ids db => Coherent types db ∧ convertAll s raws = .ok ids ∧ ids ≠ [])
      (Step.ofExcept (convertSome s raws)) db :=
  .ofExcept hdb fun h => ⟨hdb, convertSome_eq_ok h⟩

/-! ### Reads by id -/

theorem besideCache_open {α : Type} (hopen : ses.client.closed = false) (m : Store.Do α) (q : Provider) (st : Store) :
    ses.besideCache m (q, st) = ((m st).1, (q, (m st).2)) := by
  rw [besideCache, Store.Client.guarded_open hopen]
  rfl

/-- What the cache of a coherent database holds for a type is what its table stores. -/
theorem stores_iff (ha : Apart types) {s : Schema} (hs : types s) {st : Store} {id : DocId} (hid : id.idType = s.idType)
    {payload : String} : Stores types st s.key id payload ↔ st.payload? s id = some payload := by
  constructor
  · rintro ⟨s', hs', hkey, -, hpayload⟩
    rw [Store.payload?, ha.set?_eq hs hs' hkey.symm]
    exact hpayload
  · intro hpayload
    exact ⟨s, hs, rfl, hid, hpayload⟩

theorem stores_of_fetchMany {st : Store} (hf : st.Filed types) {s : Schema} (hs : types s) {ids : List DocId}
    {rows : List (DocId × String)} (h : (Store.fetchMany s ids st).1 = .ok rows) {id : DocId} {payload : String}
    (hx : (Assoc.insertAll [] rows).get? id = some payload) : Stores types st s.key id payload := by
  obtain ⟨hid, hpayload⟩ := Store.payload?_of_get?_fetchMany hf hs h hx
  exact ⟨s, hs, rfl, hid, hpayload⟩

/-- Without a cache a read of several ids, what is stored of which can be read back, answers what is held in a cache, or
    else fetched, as long as what is held is stored. -/
theorem fetchInOrder_eq_answered (ha : Apart types) {s : Schema} (hs : types s) (hopen : ses.client.closed = false)
    {st : Store} (hf : st.Filed types) {ids : List DocId} (hne : ids ≠ [])
    (hids : ∀ id ∈ ids, id.idType = s.idType ∧ ∀ p, st.payload? s id = some p → id.Readable)
    {held : DocId → Option String}
    (hheld : ∀ {id payload}, held id = some payload → Stores types st s.key id payload) :
    ses.fetchInOrder s ids st = (Provider.answered ids held fun ids => (Store.fetchMany s ids st).1, st) := by
  have hstored : ∀ {id payload}, held id = some payload → st.payload? s id = some payload := by
    intro id payload h
    obtain ⟨s', hs', hkey, -, hpayload⟩ := hheld h
    rw [Store.payload?, ha.set?_eq hs hs' hkey.symm]
    exact hpayload
  rw [fetchInOrder, Store.Client.guarded_open hopen]
  cases hset : st.set? s with
  | none =>
    -- nothing is stored, so nothing is held, and both reads ask a table that is missing
    have hnothing : ∀ id, held id = none := by
      intro id
      cases hx : held id with
      | none => rfl
      | some payload =>
        have hpayload := hstored hx
        rw [Store.payload?, hset] at hpayload
        cases hpayload
    rw [Step.bind_error (Store.fetchMany_none hset hne), Provider.answered_error hne hnothing]
    intro ids' hne'
    rw [Store.fetchMany_none hset hne']
  | some t =>
    have ht := hf.of hs hset
    have hids : ∀ id ∈ ids, id.idType = s.idType ∧ t.Returns id := fun id hid =>
      ⟨(hids id hid).1, fun p hp => (hids id hid).2 p ((Store.payload?_of_set? hset id).trans hp)⟩
    obtain ⟨rows, hrows, hall⟩ := Store.fetchMany_of ht hset hids
    -- what is held and what is fetched for the rest agree with the table
    have hagree : ∀ {id payload}, held id = some payload → t.payload? id = some payload := fun h =>
      (Store.payload?_of_set? hset _).symm.trans (hstored h)
    have hanswered : Provider.answered ids held (fun ids => (Store.fetchMany s ids st).1) =
        .ok (ids.filterMap t.payload?) := by
      refine Provider.answered_eq hagree fun ids' hsub => ?_
      obtain ⟨rows', hrows', hall'⟩ := Store.fetchMany_of ht hset fun id hid => hids id (hsub id hid)
      have hok : (Store.fetchMany s ids' st).1 = .ok rows' := by rw [hrows']
      exact ⟨rows', hok, fun x hx => (Store.payload?_of_fetchMany ht hset hok hx).2, hall'⟩
    rw [Step.bind_ok hrows, hanswered]
    exact congrArg (fun answer => (Except.ok answer, st)) (List.filterMap_congr hall)

section
variable (ha : Apart types) {k : Kind} (hk : ∀ {s}, k.schema = .ok s → types s) (hses : ses.Connected)
  (hdb : Coherent types db)
include ha hk hses hdb

theorem tracked_get (raw : RawId) : Transparent types (ses.get k raw) db := by
  refine (tracked_prepare ha hk hdb).bind fun {s _} ⟨hdb, hs, hdisposed⟩ => ?_
  refine (tracked_convert hdb s raw).bind fun {id db} ⟨hdb, hid⟩ => ?_
  have hopen := hses hdisposed
  rw [Store.Client.guarded_open hopen]
  refine .consuming (r := (Store.fetch s id db.store).1) hdb rfl fun {p} hp => ?_
  obtain ⟨answer, q, hrun, hgained, hanswer⟩ := Provider.consume_fetching (f := ses.fetcher s)
    (s := db.store) (hdb.memory hp) s.key id (fun q => besideCache_open hopen _ q _) ses.mode
  have hfetch {payload : String} : (Store.fetch s id db.store).1 = .ok (some payload) ↔ _ :=
    Store.fetch_eq_some hdb.filed hs hid
  refine ⟨q, ?_, hdb.gained hp hgained ?_⟩
  · rcases hanswer with rfl | ⟨payload, hheld, rfl⟩
    · exact hrun
    · rw [hrun, hfetch.mpr ((stores_iff ha hs hid).mp (hdb.held hp hheld not_false))]
  · rintro id' payload ⟨rfl, hok⟩
    exact (stores_iff ha hs hid).mpr (hfetch.mp hok)

theorem tracked_getAs (raw : RawId) (v : View) : Transparent types (ses.getAs k raw v) db := by
  refine (tracked_get ha hk hses hdb raw).bind fun {payload _} h => ?_
  cases payload with
  | none => exact .pure h
  | some payload => exact (Tracked.checked h _).bind fun h => .pure h

theorem tracked_holds (raw : RawId) : Transparent types (ses.holds k raw) db := by
  refine (tracked_prepare ha hk hdb).bind fun {s _} ⟨hdb, hs, hdisposed⟩ => ?_
  refine (tracked_convert hdb s raw).bind fun {id db} ⟨hdb, hid⟩ => ?_
  have hopen := hses hdisposed
  rw [Store.Client.guarded_open hopen]
  refine .consuming (r := (Store.holds s id db.store).1) hdb rfl fun {p} hp => ?_
  obtain ⟨answer, q, hrun, hshrunk, hanswer⟩ := Provider.exists?_fetching (f := ses.fetcher s)
    (s := db.store) (hdb.memory hp) s.key id (fun q => besideCache_open hopen _ q _) ses.mode
  refine ⟨q, ?_, hdb.shrunk hp hshrunk⟩
  rcases hanswer with rfl | ⟨payload, hheld, rfl⟩
  · exact hrun
  · have hpayload := (stores_iff ha hs hid).mp (hdb.held hp hheld not_false)
    rw [hrun, Store.holds_of_payload? hdb.filed hs hid hpayload]

/-- A read of several ids answers the same without the cache, if what is stored of them can be read back. -/
theorem tracked_getMany {raws : List RawId} (hraws : ∀ {s db'}, ses.prepare k db = (.ok s, db') → types s →
    ∀ raw ∈ raws, ∀ {id}, convert s raw = .ok id → ∀ p, db'.store.payload? s id = some p → id.Readable) :
    Transparent types (ses.getMany k raws) db := by
  refine (tracked_prepare ha hk hdb).noted.bind fun {s db₁} ⟨hprepared, hdb, hs, hdisposed⟩ => ?_
  have hconvert : Tracked types (fun ids db => (Coherent types db ∧ convertAll s raws = .ok ids ∧ ids ≠ []) ∧ db = db₁)
      (Step.ofExcept (convertSome s raws)) db₁ :=
    .ofExcept hdb fun h => ⟨⟨hdb, convertSome_eq_ok h⟩, rfl⟩
  refine hconvert.bind fun {ids db} ⟨⟨hdb, hall, hne⟩, hsame⟩ => ?_
  subst hsame
  have hids : ∀ id ∈ ids, id.idType = s.idType ∧ ∀ p, db.store.payload? s id = some p → id.Readable := by
    intro id hid
    obtain ⟨raw, hin, hraw⟩ := mem_convertAll hall id hid
    exact ⟨idType_convert hraw, hraws hprepared hs raw hin hraw⟩
  have hopen := hses hdisposed
  have hplain (held : DocId → Option String)
      (hheld : ∀ {id payload}, held id = some payload → Stores types db.store s.key id payload) :
      ses.fetchInOrder s ids db.store =
        (Provider.answered ids held fun ids => (Store.fetchMany s ids db.store).1, db.store) :=
    fetchInOrder_eq_answered ha hs hopen hdb.filed hne hids hheld
  have hwithout := hplain (fun _ => none) nofun
  refine .consuming hdb hwithout fun {p} hp => ?_
  obtain ⟨held, q, hrun, hheld, hgained⟩ := Provider.consumeMany_fetching (f := ses.fetcher s) (s := db.store)
    (hdb.memory hp) s.key (fun ids q => besideCache_open hopen (Store.fetchMany s ids) q _) hne ses.mode
  refine ⟨q, ?_, hdb.gained hp hgained ?_⟩
  · have hwith := hplain held fun h => hdb.held hp (hheld h) not_false
    have hsame := congrArg Prod.fst (hwith.symm.trans hwithout)
    exact hrun.trans (congrArg (fun answer => (answer, (q, db.store))) hsame)
  · rintro id payload ⟨ids', rows, hrows, hx⟩
    exact stores_of_fetchMany hdb.filed hs hrows hx

theorem tracked_getManyAs {raws : List RawId} (hraws : ∀ raw ∈ raws, raw.Valid) (v : View) :
    Transparent types (ses.getManyAs k raws v) db := by
  refine (tracked_getMany ha hk hses hdb fun _ _ raw hin _ hid _ _ => ?_).bind fun h => .checked h _
  exact (hraws raw hin (mapError_eq_ok.mp hid)).readable

/-- A read of any ids. The cache may know an invalid one that the store cannot read back. -/
theorem followed_getMany (raws : List RawId) : Followed types (ses.getMany k raws) db := by
  refine (tracked_prepare ha hk hdb).bind_followed fun {s _} ⟨hdb, hs, hdisposed⟩ => ?_
  refine (tracked_convertSome hdb s raws).bind_followed fun {ids db} ⟨hdb, _, hne⟩ => ?_
  have hopen := hses hdisposed
  refine .consuming hdb ?_ fun {p} hp => ?_
  · rw [fetchInOrder, Store.Client.guarded_open hopen]
    exact Step.bind_pure_state (Store.fetchMany s ids) _ db.store
  · obtain ⟨held, q, hrun, -, hgained⟩ := Provider.consumeMany_fetching (f := ses.fetcher s) (s := db.store)
      (hdb.memory hp) s.key (fun ids q => besideCache_open hopen (Store.fetchMany s ids) q _) hne ses.mode
    refine ⟨_, q, hrun, hdb.gained hp hgained ?_⟩
    rintro id payload ⟨ids', rows, hrows, hx⟩
    exact stores_of_fetchMany hdb.filed hs hrows hx

end

/-! ### Other reads -/

section
variable (ha : Apart types) {k : Kind} (hk : ∀ {s}, k.schema = .ok s → types s) (hdb : Coherent types db)

theorem tracked_reading {α : Type} (hdb : Coherent types db) {m : Store.Do α} (hread : ∀ st, (m st).2 = st) :
    Transparent types (ses.onStore m) db := by
  refine .reading hdb fun st => ?_
  rw [Store.Client.guarded]
  split
  · rfl
  · exact hread st

theorem tracked_idsWhere (hdb : Coherent types db) (s : Schema) (f : CompiledFilter) :
    Tracked types (fun ids db => Coherent types db ∧ ∀ id ∈ ids, id.idType = s.idType)
      (ses.onStore (Store.idsWhere s f)) db := by
  have hread : Transparent types (ses.onStore (Store.idsWhere s f)) db :=
    tracked_reading hdb fun _ => rfl
  refine ⟨hread.same, fun {ids db'} hok => ⟨hread.ok hok, ?_⟩, hread.error⟩
  have hguarded : (ses.client.guarded (Store.idsWhere s f) db.store).1 = .ok ids := congrArg Prod.fst hok
  rw [Store.Client.guarded] at hguarded
  split at hguarded
  · cases hguarded
  · exact Store.idType_idsWhere hguarded

include ha hk hdb

theorem tracked_getInterval (low high : RawId) :
    Transparent types (ses.getInterval k low high) db := by
  refine (tracked_prepare ha hk hdb).bind fun {s _} h => ?_
  refine (Tracked.checked h.1 _).bind fun h => ?_
  refine (Tracked.checked h _).bind fun h => (Tracked.checked h _).bind fun h => ?_
  exact (tracked_reading h fun _ => rfl).bind fun h => .checked h _

theorem tracked_query (q : Query) : Transparent types (ses.query k q) db := by
  refine (tracked_prepare ha hk hdb).bind fun {s _} h => ?_
  split
  · exact tracked_reading h.1 fun _ => rfl
  · exact (Tracked.checked h.1 _).bind fun h => tracked_reading h fun _ => rfl

theorem tracked_queryAs (q : Query) (v : View) : Transparent types (ses.queryAs k q v) db :=
  (tracked_query ha hk hdb q).bind fun h => .checked h _

theorem tracked_count (q : Query) : Transparent types (ses.count k q) db := by
  refine (tracked_prepare ha hk hdb).bind fun {s _} h => ?_
  split
  · exact tracked_reading h.1 fun _ => rfl
  · exact (Tracked.checked h.1 _).bind fun h => tracked_reading h fun _ => rfl

theorem tracked_raw (q : RawQuery) : Transparent types (ses.raw k q) db := by
  unfold raw
  split
  · exact .fail hdb _
  · exact (tracked_prepare ha hk hdb).bind fun h => tracked_reading h.1 fun _ => rfl

theorem tracked_rawAs (q : RawQuery) (v : View) : Transparent types (ses.rawAs k q v) db :=
  (tracked_raw ha hk hdb q).bind fun h => .checked h _

end

/-! ### Inserting -/

section
variable (ha : Apart types) {s : Schema} (hs : types s)

theorem tracked_invalidate {ids : List DocId} (hdb : CoherentBut types (fun k id => k = s.key ∧ id ∈ ids) db) :
    Transparent types (invalidate s ids) db :=
  Database.tracked_removeMany hdb

theorem tracked_invalidateAll {lost : DocId → Prop} (hdb : CoherentBut types (fun k id => k = s.key ∧ lost id) db) :
    Transparent types (invalidateAll s) db :=
  (Database.tracked_clearFor hdb).mono And.left

theorem tracked_writing {α : Type} (hdb : Coherent types db) {lost : DocId → Prop} {m : Store.Do α}
    (hw : Writes types s.key lost m) :
    Tracked types (fun _ => CoherentBut types fun k id => k = s.key ∧ lost id) (ses.onStore m) db :=
  .writing hdb (hw.guarded ses.client)

theorem tracked_takeGuids (hdb : Coherent types db) (count : Nat) :
    Tracked types (fun ids db => Coherent types db ∧ ∀ id ∈ ids, id.idType = .guid) (takeGuids count) db := by
  refine .change rfl ⟨hdb.of_frame rfl rfl hdb.registry, fun id hid => ?_⟩
  obtain ⟨i, -, rfl⟩ := List.mem_map.mp hid
  rfl

theorem tracked_assignBlock (hdb : Coherent types db) (s : Schema) (count : Nat) :
    Tracked types (fun ids db => Coherent types db ∧ ∀ id ∈ ids, id.idType = s.idType) (ses.assignBlock s count) db := by
  have hreserve : Transparent types (Database.onStore (ses.client.reserve s count)) db :=
    .adding hdb (Store.Client.reserve_writes ses.client s count)
  unfold assignBlock
  split
  · exact .fail hdb _
  · exact hreserve.bind fun h => .ofExcept h fun hok => ⟨h, idType_convertAll hok⟩

theorem tracked_assignIds (hdb : Coherent types db) (s : Schema) (count : Nat) :
    Tracked types (fun ids db => Coherent types db ∧ ∀ id ∈ ids, id.idType = s.idType) (ses.assignIds s count) db := by
  unfold assignIds
  split
  · exact .pure ⟨hdb, nofun⟩
  · split
    · rename_i hty
      exact (tracked_takeGuids hdb count).mono fun h => ⟨h.1, fun id hid => (h.2 id hid).trans hty.symm⟩
    · exact tracked_assignBlock hdb s count
    · exact tracked_assignBlock hdb s count
    · exact .fail hdb _

theorem tracked_documentOf (hdb : Coherent types db) (item : Item) : Transparent types (documentOf item) db :=
  .state rfl (.checked hdb _)

include ha hs

theorem tracked_writeDocument (hdb : Coherent types db) (document : Json) {id : DocId} (hid : id.idType = s.idType) :
    Transparent types (ses.writeDocument s document id) db := by
  refine (Tracked.checked hdb _).bind fun {x _} h => ?_
  obtain ⟨payload, es⟩ := x
  refine (tracked_writing h (Store.insert_writes ha hs hid payload es)).bind fun h => ?_
  exact tracked_invalidate (h.mono fun _ _ hlost => hlost.2.elim)

theorem tracked_insertItem (hdb : Coherent types db) (item : Item) {id : DocId} (hid : id.idType = s.idType) :
    Transparent types (ses.insertItem s item id) db :=
  (tracked_documentOf hdb item).bind fun h => tracked_writeDocument ha hs h _ hid

theorem tracked_insertEach : ∀ {items : List Item} {assigned : List DocId} {db : Database}, Coherent types db →
    (∀ id ∈ assigned, id.idType = s.idType) →
    Transparent types (ses.insertEach s items assigned) db
  | [], _, _, hdb, _ => .pure hdb
  | item :: items, assigned, db, hdb, hassigned => by
    rw [insertEach.eq_def]
    dsimp only
    split
    · refine (tracked_convert hdb s _).bind fun h => ?_
      refine (tracked_insertItem ha hs h.1 item h.2).bind fun h => ?_
      exact (tracked_insertEach h hassigned).bind fun h => .pure h
    · rename_i id rest _
      refine (tracked_insertItem ha hs hdb item (hassigned id (List.mem_cons_self ..))).bind fun h => ?_
      exact (tracked_insertEach h fun id hid => hassigned id (List.mem_cons_of_mem _ hid)).bind fun h => .pure h
    · exact .fail hdb _

theorem tracked_writeEach : ∀ {ps : List Parsed} {assigned : List DocId} {db : Database}, Coherent types db →
    (∀ p ∈ ps, ∀ id, p.id? = some id → id.idType = s.idType) → (∀ id ∈ assigned, id.idType = s.idType) →
    Transparent types (ses.writeEach s ps assigned) db
  | [], _, _, hdb, _, _ => .pure hdb
  | p :: ps, assigned, db, hdb, hps, hassigned => by
    obtain ⟨hp, hps⟩ := List.forall_mem_cons.mp hps
    rw [writeEach.eq_def]
    dsimp only
    split
    · rename_i id hid
      refine (tracked_writeDocument ha hs hdb p.document (hp id hid)).bind fun h => ?_
      exact (tracked_writeEach h hps hassigned).bind fun h => .pure h
    · obtain ⟨hid, hassigned⟩ := List.forall_mem_cons.mp hassigned
      refine (tracked_writeDocument ha hs hdb p.document hid).bind fun h => ?_
      exact (tracked_writeEach h hps hassigned).bind fun h => .pure h
    · exact .fail hdb _

theorem tracked_insertItems (hdb : Coherent types db) (items : List Item) :
    Transparent types (ses.insertItems s items) db :=
  (tracked_assignIds hdb s _).bind fun h => tracked_insertEach ha hs h.1 h.2

omit hs

variable {k : Kind} (hk : ∀ {s}, k.schema = .ok s → types s) (hdb : Coherent types db)
include hk hdb

theorem tracked_insertMany (items : List Item) :
    Transparent types (ses.insertMany k items) db := by
  unfold insertMany
  split
  · exact .fail hdb _
  · exact (tracked_prepare ha hk hdb).bind fun h => tracked_insertItems ha h.2.1 h.1 items

theorem tracked_insertManyJson (texts : List String) :
    Transparent types (ses.insertManyJson k texts) db := by
  unfold insertManyJson
  split
  · exact .fail hdb _
  · refine (tracked_prepare ha hk hdb).bind fun {s _} h => .state rfl ?_
    refine (tracked_parsedAll h.1 _ s texts).bind fun ⟨hdb, hread⟩ => ?_
    exact (tracked_assignIds hdb s _).bind fun h' =>
      tracked_writeEach ha h.2.1 h'.1 (fun p hp => (hread p hp).idType) h'.2

omit ha hk in
theorem tracked_onlyId (ids : List DocId) : Transparent types (onlyId ids) db := by
  unfold onlyId
  split
  · exact .pure hdb
  · exact .fail hdb _

theorem tracked_insert (item : Item) : Transparent types (ses.insert k item) db :=
  (tracked_insertMany ha hk hdb [item]).bind fun h => tracked_onlyId h _

theorem tracked_insertJson (text : String) : Transparent types (ses.insertJson k text) db :=
  (tracked_insertManyJson ha hk hdb [text]).bind fun h => tracked_onlyId h _

/-! ### Replacing and deleting -/

theorem tracked_update (item : Item) : Transparent types (ses.update k item) db := by
  refine (tracked_prepare ha hk hdb).bind fun {s _} ⟨hdb, hs, _⟩ => ?_
  split
  · exact .fail hdb _
  · rename_i id _
    refine (tracked_convert hdb s _).bind fun h => (tracked_documentOf h.1 item).bind fun h' => ?_
    refine (Tracked.checked h' _).bind fun {x _} h' => ?_
    obtain ⟨payload, es⟩ := x
    refine (tracked_writing h' (Store.replace_writes ha hs h.2 payload es)).bind fun h => tracked_invalidate ?_
    exact h.mono fun _ _ hlost => ⟨hlost.1, List.mem_singleton.mpr hlost.2⟩

theorem tracked_deleteMany (raws : List RawId) :
    Transparent types (ses.deleteMany k raws) db := by
  refine (tracked_prepare ha hk hdb).bind fun {s _} ⟨hdb, hs, _⟩ => ?_
  refine (tracked_convertSome hdb s raws).bind fun {ids _} ⟨hdb, hall, _⟩ => ?_
  refine (tracked_writing hdb (Store.deleteMany_writes ha hs (idType_convertAll hall))).bind fun h => ?_
  exact (tracked_invalidate h).bind fun h => .pure h

theorem tracked_delete (raw : RawId) : Transparent types (ses.delete k raw) db :=
  (tracked_deleteMany ha hk hdb [raw]).bind fun h => .pure h

theorem tracked_deleteInterval (low high : RawId) :
    Transparent types (ses.deleteInterval k low high) db := by
  refine (tracked_prepare ha hk hdb).bind fun {s _} ⟨hdb, hs, _⟩ => ?_
  refine (Tracked.checked hdb _).bind fun h => ?_
  refine (Tracked.checked h _).bind fun {low _} h => ?_
  refine (Tracked.checked h _).bind fun {high _} h => ?_
  refine (tracked_writing h (Store.deleteInterval_writes ha hs low high)).bind fun h => ?_
  exact (tracked_invalidateAll h).bind fun h => .pure h

theorem tracked_deleteQuery (p : Predicate) : Transparent types (ses.deleteQuery k p) db := by
  refine (tracked_prepare ha hk hdb).bind fun {s _} ⟨hdb, hs, _⟩ => ?_
  refine (Tracked.checked hdb _).bind fun {f db} h => ?_
  refine (tracked_idsWhere h s f).bind fun {ids _} h => ?_
  split
  · exact .pure h.1
  · refine (tracked_writing h.1 (Store.deleteMany_writes ha hs h.2)).bind fun h => ?_
    exact (tracked_invalidateAll h).bind fun h => .pure h

end

end DocStore.Session
