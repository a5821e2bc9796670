import DocStore.Proofs.Cache.OneEntry
import DocStore.Proofs.Store.Shapes
import DocStore.Service

/-! How sessions come to the store. Whatever a session is asked to do with a type, it prepares the type first; what it
    does to the store from then on are calls of its client that write rows of the type, what it does to the cache it
    does to the entry of the type, and but for the number of GUIDs nothing else of the database changes. -/

namespace DocStore

open Cache (Provider)

/-- Whether a call writes rows of the set of a schema, or reserves identities for them. -/
def Store.Client.Call.WritesTo (s : Schema) : Store.Client.Call → Prop
  | .insert s' .. | .replace s' .. | .deleteMany s' _ | .deleteInterval s' .. | .reserve s' _ => s' = s
  | _ => False

theorem Store.Client.Call.rows_of_writesTo {s : Schema} {call : Store.Client.Call} (h : call.WritesTo s) :
    call.shapes = false := by
  cases call with
  | upsert | drop => cases h
  | _ => rfl

namespace Session

variable {α β : Type} {ses : Session} {s : Schema} {k : Kind}

/-- What a session does on the store if its client is open. -/
theorem onStore_apply (hopen : ses.client.closed = false) (m : Store.Do α) (db : Database) :
    ses.onStore m db = ((m db.store).1, { db with store := (m db.store).2 }) := by
  rw [onStore, Store.Client.guarded_open hopen]
  rfl

/-! ### Rows of one set -/

/-- A step that comes to the store by calls of the session's client that write rows of one set, and leaves the rest of
    the database alone but for its cache and the number of its GUIDs. -/
def Confined (ses : Session) (s : Schema) (m : Database.Do α) : Prop := ∀ db, ∃ run cache guids,
  (∀ x ∈ run, x.1 = ses.client ∧ x.2.WritesTo s) ∧ (m db).2 = { db with store := db.store.after run, cache, guids }

namespace Confined

variable {m : Database.Do α}

theorem bind {f : α → Database.Do β} (hm : ses.Confined s m) (hf : ∀ a, ses.Confined s (f a)) :
    ses.Confined s (m >>= f) := by
  intro db
  obtain ⟨run, cache, guids, hrun, h⟩ := hm db
  cases hr : m db with
  | mk r db' =>
    rw [hr] at h
    cases r with
    | error e =>
      rw [Step.bind_error hr]
      exact ⟨run, cache, guids, hrun, h⟩
    | ok a =>
      rw [Step.bind_ok hr]
      obtain ⟨run', cache', guids', hrun', h'⟩ := hf a db'
      change db' = _ at h
      refine ⟨run ++ run', cache', guids', fun x hx => ?_, ?_⟩
      · exact (List.mem_append.mp hx).elim (hrun x) (hrun' x)
      · rw [h', h, Store.after_append]

end Confined

/-- A step that is confined to the rows of one set and, in the cache, to the entry of their type. -/
structure Enclosed (ses : Session) (s : Schema) (m : Database.Do α) : Prop where
  confined : ses.Confined s m
  cached : ∀ db, Provider.AsideIn s.key db.cache (m db).2.cache

namespace Enclosed

variable {m : Database.Do α}

theorem of_cache (h : ∀ db, ∃ cache guids, Provider.AsideIn s.key db.cache cache ∧
    (m db).2 = { db with cache, guids }) : ses.Enclosed s m where
  confined db := by
    obtain ⟨cache, guids, -, h⟩ := h db
    exact ⟨[], cache, guids, fun _ hx => absurd hx List.not_mem_nil, h⟩
  cached db := by
    obtain ⟨cache, guids, haside, h⟩ := h db
    rw [h]
    exact haside

theorem of_reads (h : ∀ db, (m db).2 = db) : ses.Enclosed s m :=
  .of_cache fun db => ⟨db.cache, db.guids, .refl _, h db⟩

theorem pure (a : α) : ses.Enclosed s (Pure.pure a) := .of_reads fun _ => rfl

theorem fail (e : Error) : ses.Enclosed s (Step.fail e : Database.Do α) := .of_reads fun _ => rfl

theorem checked (r : Except Error α) : ses.Enclosed s (Step.ofExcept r) := .of_reads fun _ => rfl

theorem bind {f : α → Database.Do β} (hm : ses.Enclosed s m) (hf : ∀ a, ses.Enclosed s (f a)) :
    ses.Enclosed s (m >>= f) where
  confined := hm.confined.bind fun a => (hf a).confined
  cached db := by
    have hfirst := hm.cached db
    cases hr : m db with
    | mk r db' =>
      rw [hr] at hfirst
      cases r with
      | error e => rwa [Step.bind_error hr]
      | ok a =>
        rw [Step.bind_ok hr]
        exact hfirst.trans ((hf a).cached db')

/-- A step that looks at the database first. -/
theorem state {f : Database → Database.Do α} (hf : ∀ db, ses.Enclosed s (f db)) :
    ses.Enclosed s (Step.state >>= f) :=
  ⟨fun db => (hf db).confined db, fun db => (hf db).cached db⟩

/-- What is done with the entry of the type. -/
theorem onEntry (m : Cache.Entry.Do Unit) :
    ses.Enclosed s (Database.onCache (Provider.onRegistered s.key () m)) := by
  refine .of_cache fun db => ?_
  rw [Database.onCache]
  split
  · exact ⟨db.cache, db.guids, .refl _, rfl⟩
  · rename_i p hp
    exact ⟨_, db.guids, hp ▸ .some fun hs => .onRegistered hs () m, rfl⟩

theorem reading {m : Store.Do α} (h : ∀ st, (m st).2 = st) : ses.Enclosed s (ses.onStore m) := by
  refine .of_reads fun db => ?_
  show { db with store := (ses.client.guarded m db.store).2 } = db
  rw [ses.client.guarded_reads (h db.store)]

/-- A write of the store, which is what a call of the client does. -/
theorem writing (call : Store.Client.Call) (hcall : call.WritesTo s) {m : Store.Do α} {f : α → Store.Client.Reply}
    (h : ses.client.perform call = m.map f) : ses.Enclosed s (Database.onStore m) where
  confined db := by
    refine ⟨[(ses.client, call)], db.cache, db.guids, fun x hx => ?_, ?_⟩
    · rw [List.mem_singleton.mp hx]
      exact ⟨rfl, hcall⟩
    · show { db with store := (m db.store).2 } = { db with store := (ses.client.perform call db.store).2 }
      rw [h, Step.map_state]
  cached db := .refl db.cache

theorem consuming {plain : Store.Do α} {cached : Step Error (Provider × Store) α} (hplain : ∀ st, (plain st).2 = st)
    (hcached : ∀ I : Store → Prop, Step.Keeps (fun x : Provider × Store => I x.2) cached)
    (haside : ∀ {p : Provider}, p.Sound → ∀ st, Provider.Aside s.key p (cached (p, st)).2.1) :
    ses.Enclosed s (Database.consuming plain cached) := by
  refine .of_cache fun db => ?_
  rw [Database.consuming]
  split
  · refine ⟨db.cache, db.guids, .refl _, ?_⟩
    show { db with store := (plain db.store).2 } = db
    rw [hplain]
  · rename_i p hp
    refine ⟨some (cached (p, db.store)).2.1, db.guids, hp ▸ .some fun hs => haside hs db.store, ?_⟩
    have hstore := (hcached (· = db.store) (p, db.store) rfl).1
    show { db with cache := _, store := (cached (p, db.store)).2.2 } = _
    rw [hstore]

end Enclosed

/-! ### Reads -/

/-- The reads of a fetcher change nothing in the store. -/
theorem fetcher_keeps {I : Store → Prop} (ses : Session) (s : Schema) : (ses.fetcher s).Keeps I := by
  have hbeside {α : Type} {m : Store.Do α} (hread : ∀ st, (m st).2 = st) :
      Step.Keeps (fun x : Provider × Store => I x.2) (ses.besideCache m) :=
    .within (Store.Client.guarded_ensures (.of_reads hread) ses.client) (fun _ h => h) fun _ _ _ hst => hst
  exact ⟨fun _ => hbeside fun _ => rfl, fun _ => hbeside fun _ => rfl, fun _ => hbeside fun _ => rfl⟩

theorem fetcher_outside (ses : Session) (s : Schema) : (ses.fetcher s).Outside :=
  ⟨fun _ _ => rfl, fun _ _ => rfl, fun _ _ => rfl⟩

theorem fetchInOrder_reads (ses : Session) (s : Schema) (ids : List DocId) (st : Store) :
    (ses.fetchInOrder s ids st).2 = st :=
  (Step.bind_pure_state ..).trans (ses.client.guarded_reads rfl)

/-! ### Writes -/

theorem enclosed_assignBlock (count : Nat) : ses.Enclosed s (ses.assignBlock s count) := by
  unfold assignBlock
  split
  · exact .fail _
  · exact .bind (.writing (.reserve s count) rfl rfl) fun _ => .checked _

theorem enclosed_assignIds (count : Nat) : ses.Enclosed s (ses.assignIds s count) := by
  unfold assignIds
  split
  · exact .pure _
  · split
    · exact .of_cache fun db => ⟨db.cache, _, .refl _, rfl⟩
    · exact enclosed_assignBlock count
    · exact enclosed_assignBlock count
    · exact .fail _

theorem enclosed_writeDocument (document : Json) (id : DocId) : ses.Enclosed s (ses.writeDocument s document id) :=
  .bind (.checked _) fun ⟨payload, es⟩ => .bind (.writing (.insert s id payload es) rfl rfl) fun _ => .onEntry _

theorem enclosed_documentOf (item : Item) : ses.Enclosed s (documentOf item) := .state fun _ => .checked _

theorem enclosed_insertItem (item : Item) (id : DocId) : ses.Enclosed s (ses.insertItem s item id) :=
  .bind (enclosed_documentOf item) fun _ => enclosed_writeDocument _ _

theorem enclosed_insertEach : ∀ {items : List Item} {assigned : List DocId},
    ses.Enclosed s (ses.insertEach s items assigned)
  | [], _ => .pure _
  | item :: items, assigned => by
    rw [insertEach.eq_def]
    dsimp only
    split
    · refine .bind (.checked _) fun id => .bind (enclosed_insertItem _ _) fun _ => ?_
      exact .bind enclosed_insertEach fun _ => .pure _
    · exact .bind (enclosed_insertItem _ _) fun _ => .bind enclosed_insertEach fun _ => .pure _
    · exact .fail _

theorem enclosed_writeEach : ∀ {ps : List Parsed} {assigned : List DocId},
    ses.Enclosed s (ses.writeEach s ps assigned)
  | [], _ => .pure _
  | p :: ps, assigned => by
    rw [writeEach.eq_def]
    dsimp only
    split
    · exact .bind (enclosed_writeDocument _ _) fun _ => .bind enclosed_writeEach fun _ => .pure _
    · exact .bind (enclosed_writeDocument _ _) fun _ => .bind enclosed_writeEach fun _ => .pure _
    · exact .fail _

theorem enclosed_insertItems (items : List Item) : ses.Enclosed s (ses.insertItems s items) :=
  .bind (enclosed_assignIds _) fun _ => enclosed_insertEach

theorem enclosed_onlyId (ids : List DocId) : ses.Enclosed s (onlyId ids) := by
  unfold onlyId
  split
  · exact .pure _
  · exact .fail _

/-! ### Preparing -/

theorem onCache_store (m : Provider.Do Unit) (db : Database) : (Database.onCache m db).2.store = db.store := by
  rw [Database.onCache]
  split <;> rfl

theorem upsertWith_store (c : Store.Client) (s : Schema) (db : Database) :
    (Database.upsertWith c s db).2.store = db.store ∨
      (Database.upsertWith c s db).2.store = (c.perform (.upsert s) db.store).2 := by
  have hclear := onCache_store (Provider.clearFor s.key) db
  rw [Store.Client.perform, Step.map_state, ← hclear, Database.upsertWith, Step.bind_apply]
  cases Database.onCache (Provider.clearFor s.key) db with
  | mk r db₁ =>
    cases r with
    | error e => exact Or.inl rfl
    | ok u =>
      refine Or.inr ?_
      dsimp only
      rw [Step.bind_apply, Database.onStore, Step.within]
      cases c.guarded (Store.upsert s) db₁.store with
      | mk r st => cases r <;> rfl

theorem ensureSchema_apply (c : Store.Client) (s : Schema) (db : Database) : Database.ensureSchema c s db =
    if db.shapes.isCurrent s then (.ok (), db) else Database.upsertWith c s db := by
  show (if db.shapes.isCurrent s then pure () else Database.upsertWith c s : Database.Do Unit) db = _
  split <;> rfl

/-- What preparing a type does to the store is bringing one set to its shape, if anything. -/
theorem prepare_store (ses : Session) (k : Kind) (db : Database) : (ses.prepare k db).2.store = db.store ∨
    ∃ s, (ses.prepare k db).2.store = (ses.client.perform (.upsert s) db.store).2 := by
  unfold prepare
  split
  · exact Or.inl rfl
  · rw [Step.bind_apply, Database.schemaOf, Step.transaction]
    cases db.registry.getOrBuild k.key k.schema with
    | error e => exact Or.inl rfl
    | ok x =>
      dsimp only
      rw [Step.bind_pure_state, ensureSchema_apply]
      split
      · exact Or.inl rfl
      · exact (upsertWith_store ..).imp_right fun h => ⟨x.1, h⟩

theorem isCurrent_mark (u : UpsertedShapes) (s : Schema) : (u.mark s).isCurrent s = true := by
  rw [UpsertedShapes.isCurrent, UpsertedShapes.mark, Assoc.get?_insert, if_pos rfl, beq_self_eq_true]

theorem prepare_eq_ok {ses : Session} {db db' : Database} (h : ses.prepare k db = (.ok s, db')) :
    ses.disposed = false ∧ ∃ db₁, Database.schemaOf k db = (.ok s, db₁) ∧
      Database.ensureSchema ses.client s db₁ = (.ok (), db') := by
  unfold prepare at h
  split at h
  · cases h
  · rename_i hopen
    obtain ⟨s', db₁, hschema, h⟩ := Step.bind_eq_ok.mp h
    obtain ⟨u, db₂, hensured, h⟩ := Step.bind_eq_ok.mp h
    cases h
    exact ⟨Bool.eq_false_iff.mpr hopen, db₁, hschema, hensured⟩

/-- A type that is prepared has the shape that its store is known to have. -/
theorem prepare_current {ses : Session} {db db' : Database} (h : ses.prepare k db = (.ok s, db')) :
    db'.shapes.isCurrent s = true := by
  obtain ⟨-, db₁, -, hensured⟩ := prepare_eq_ok h
  rw [ensureSchema_apply] at hensured
  split at hensured
  · rename_i hcurrent
    cases hensured
    exact hcurrent
  · obtain ⟨-, db₃, -, h⟩ := Step.bind_eq_ok.mp hensured
    obtain ⟨-, db₄, -, h⟩ := Step.bind_eq_ok.mp h
    cases h
    exact isCurrent_mark ..

/-! ### Whole calls -/

/-- A step that prepares a type and from then on comes to nothing but the rows of the type and its entry in the cache,
    unless it fails at once. -/
def Prepared (ses : Session) (k : Kind) (m : Database.Do α) : Prop :=
  (∃ e, m = Step.fail e) ∨ ∃ rest : Schema → Database.Do α, m = ses.prepare k >>= rest ∧ ∀ s, ses.Enclosed s (rest s)

theorem Prepared.intro {rest : Schema → Database.Do α} (h : ∀ s, ses.Enclosed s (rest s)) :
    ses.Prepared k (ses.prepare k >>= rest) :=
  Or.inr ⟨rest, rfl, h⟩

theorem Prepared.bind {m : Database.Do α} {f : α → Database.Do β} (hm : ses.Prepared k m)
    (hf : ∀ s a, ses.Enclosed s (f a)) : ses.Prepared k (m >>= f) := by
  obtain ⟨e, rfl⟩ | ⟨rest, rfl, hrest⟩ := hm
  · exact Or.inl ⟨e, rfl⟩
  · exact Or.inr ⟨fun s => rest s >>= f, Step.bind_assoc .., fun s => (hrest s).bind (hf s)⟩

theorem Prepared.map {m : Database.Do α} {f : α → β} (hm : ses.Prepared k m) : ses.Prepared k (m.map f) :=
  hm.bind fun _ _ => .pure _

theorem prepared_getAs (raw : RawId) (v : View) : ses.Prepared k (ses.getAs k raw v) := by
  have hget : ses.Prepared k (ses.get k raw) := .intro fun s => .bind (.checked _) fun id =>
    .consuming (fun _ => ses.client.guarded_reads rfl) (fun _ => Provider.consume_keeps (ses.fetcher_keeps s) _ _ _)
      fun hs => Provider.consume_aside (ses.fetcher_outside s) _ _ hs _
  refine hget.bind fun _ payload => ?_
  split
  · exact .pure _
  · exact .bind (.checked _) fun _ => .pure _

theorem prepared_getManyAs (raws : List RawId) (v : View) : ses.Prepared k (ses.getManyAs k raws v) := by
  have hget : ses.Prepared k (ses.getMany k raws) := .intro fun s => .bind (.checked _) fun ids =>
    .consuming (ses.fetchInOrder_reads s ids) (fun _ => Provider.consumeMany_keeps (ses.fetcher_keeps s) _ _ _)
      fun hs => Provider.consumeMany_aside (ses.fetcher_outside s) _ _ hs _
  exact hget.bind fun _ _ => .checked _

theorem prepared_query (q : Query) : ses.Prepared k (ses.query k q) := by
  refine .intro fun s => ?_
  split
  · exact .reading fun _ => rfl
  · exact .bind (.checked _) fun _ => .reading fun _ => rfl

theorem prepared_count (q : Query) : ses.Prepared k (ses.count k q) := by
  refine .intro fun s => ?_
  split
  · exact .reading fun _ => rfl
  · exact .bind (.checked _) fun _ => .reading fun _ => rfl

theorem prepared_raw (q : RawQuery) : ses.Prepared k (ses.raw k q) := by
  unfold raw
  split
  · exact Or.inl ⟨_, rfl⟩
  · exact .intro fun _ => .reading fun _ => rfl

theorem prepared_insertMany (items : List Item) : ses.Prepared k (ses.insertMany k items) := by
  unfold insertMany
  split
  · exact Or.inl ⟨_, rfl⟩
  · exact .intro fun _ => enclosed_insertItems items

theorem prepared_insertManyJson (texts : List String) : ses.Prepared k (ses.insertManyJson k texts) := by
  unfold insertManyJson
  split
  · exact Or.inl ⟨_, rfl⟩
  · exact .intro fun _ => .state fun _ => .bind (.checked _) fun _ =>
      .bind (enclosed_assignIds _) fun _ => enclosed_writeEach

theorem prepared_update (item : Item) : ses.Prepared k (ses.update k item) := by
  refine .intro fun s => ?_
  split
  · exact .fail _
  · refine .bind (.checked _) fun id => .bind (enclosed_documentOf item) fun _ => .bind (.checked _) fun ⟨payload, es⟩ => ?_
    exact .bind (.writing (.replace s id payload es) rfl rfl) fun _ => .onEntry _

theorem prepared_deleteMany (raws : List RawId) : ses.Prepared k (ses.deleteMany k raws) :=
  .intro fun s => .bind (.checked _) fun ids => .bind (.writing (.deleteMany s ids) rfl rfl) fun _ =>
    .bind (.onEntry _) fun _ => .pure _

theorem prepared_deleteInterval (low high : RawId) : ses.Prepared k (ses.deleteInterval k low high) :=
  .intro fun s => .bind (.checked _) fun _ => .bind (.checked _) fun low => .bind (.checked _) fun high =>
    .bind (.writing (.deleteInterval s low high) rfl rfl) fun _ => .bind (.onEntry _) fun _ => .pure _

theorem prepared_deleteQuery (p : Predicate) : ses.Prepared k (ses.deleteQuery k p) := by
  refine .intro fun s => .bind (.checked _) fun f => .bind (.reading fun _ => rfl) fun ids => ?_
  split
  · exact .pure _
  · exact .bind (.writing (.deleteMany s ids) rfl rfl) fun _ => .bind (.onEntry _) fun _ => .pure _

theorem prepared_holds (raw : RawId) : ses.Prepared k (ses.holds k raw) := .intro fun s => .bind (.checked _) fun _ =>
  .consuming (fun _ => ses.client.guarded_reads rfl) (fun _ => Provider.exists?_keeps (ses.fetcher_keeps s) _ _ _)
    fun hs => Provider.exists?_aside (ses.fetcher_outside s) _ _ hs _

theorem prepared_getInterval (low high : RawId) : ses.Prepared k (ses.getInterval k low high) := .intro fun _ =>
  .bind (.checked _) fun _ => .bind (.checked _) fun _ => .bind (.checked _) fun _ =>
    .bind (.reading fun _ => rfl) fun _ => .checked _

/-- The structure type that a call is about. -/
def Call.kind : Call → Kind
  | .schema k | .get k .. | .getMany k .. | .holds k _ | .getInterval k .. | .query k .. | .count k _ | .countAll k
  | .raw k .. | .insert k _ | .insertMany k _ | .insertJson k _ | .insertManyJson k _ | .update k _ | .delete k _
  | .deleteMany k _ | .deleteInterval k .. | .deleteQuery k _ => k

/-- Whatever a session is asked to do, it prepares the type first and from then on comes to nothing but the rows of the
    type and its entry in the cache. -/
theorem perform_enclosed (ses : Session) (c : Call) : ses.Prepared c.kind (ses.perform c) := by
  cases c with
  | schema k => exact .intro fun s => .pure _
  | get k raw v => exact (prepared_getAs raw v).map
  | getMany k raws v => exact (prepared_getManyAs raws v).map
  | holds k raw => exact (prepared_holds raw).map
  | getInterval k low high => exact (prepared_getInterval low high).map
  | query k q v => exact ((prepared_query q).bind fun _ _ => .checked _).map
  | count k q => exact (prepared_count q).map
  | countAll k => exact (prepared_count {}).map
  | raw k q v => exact ((prepared_raw q).bind fun _ _ => .checked _).map
  | insert k item => exact ((prepared_insertMany [item]).bind fun _ ids => enclosed_onlyId ids).map
  | insertMany k items => exact (prepared_insertMany items).map
  | insertJson k text => exact ((prepared_insertManyJson [text]).bind fun _ ids => enclosed_onlyId ids).map
  | insertManyJson k texts => exact (prepared_insertManyJson texts).map
  | update k item => exact (prepared_update item).map
  | delete k raw => exact ((prepared_deleteMany [raw]).bind fun _ _ => .pure _).map
  | deleteMany k raws => exact (prepared_deleteMany raws).map
  | deleteInterval k low high => exact (prepared_deleteInterval low high).map
  | deleteQuery k p => exact (prepared_deleteQuery p).map

/-- Whatever a session is asked to do, it prepares the type first and writes rows of the type at most. -/
theorem perform_prepared (ses : Session) (c : Call) : (∃ e, ses.perform c = Step.fail e) ∨
    ∃ rest : Schema → Database.Do Reply, ses.perform c = ses.prepare c.kind >>= rest ∧ ∀ s, ses.Confined s (rest s) := by
  obtain hfail | ⟨rest, h, hrest⟩ := ses.perform_enclosed c
  · exact Or.inl hfail
  · exact Or.inr ⟨rest, h, fun s => (hrest s).confined⟩

end Session

end DocStore
