import DocStore.Proofs.Coherence.Database
import DocStore.Proofs.Database
import DocStore.Proofs.Schema.Built
import DocStore.Proofs.Session.Prepared
import DocStore.Proofs.Store.Selected

/-! Asking by a predicate. Whether a session is asked how many structures a predicate holds for, which payloads they
    have, which ids, or to delete them, the engine refuses it for one and the same reason, or it is done with one and the
    same structures. Asking for everything is what asking by the empty query is. -/

namespace DocStore

open Cache (Provider)
open Sql (Excess)

namespace Session

variable {ses : Session} {k : Kind} {s : Schema} {db db' : Database}

/-! ### Types that stay prepared -/

theorem ensureSchema_registry (c : Store.Client) (s : Schema) (r : Registry) :
    Step.Keeps (fun db : Database => db.registry = r) (Database.ensureSchema c s) := by
  refine .state fun db _ => ?_
  split
  · exact .pure trivial
  · have hclear := Database.onCache_keeps (I := fun db => db.registry = r) (fun _ h => h) (Provider.clearFor s.key)
    exact .andThen hclear fun _ => .andThen (.of_state fun _ h => h) fun _ => .update fun _ h => h

theorem prepare_registered (h : ses.prepare k db = (.ok s, db')) : db'.registry.get? k.key = some s := by
  obtain ⟨-, db₁, hschema, hensured⟩ := prepare_eq_ok h
  obtain ⟨registry, hget, rfl⟩ := Database.schemaOf_eq_ok hschema
  have hkept := (ensureSchema_registry ses.client s registry { db with registry } rfl).1
  rw [hensured] at hkept
  change db'.registry = registry at hkept
  rw [hkept]
  exact (Registry.get?_getOrBuild hget).1

/-- A type whose schema is registered, and whose set is known to have its shape, is prepared without doing anything. -/
theorem prepare_known (hregistered : db.registry.get? k.key = some s) (hshaped : db.shapes.isCurrent s = true)
    (hopen : ses.disposed = false) : ses.prepare k db = (.ok s, db) := by
  have hschema : Database.schemaOf k db = (.ok s, db) := by
    rw [Database.schemaOf, Step.transaction, Registry.getOrBuild, hregistered]
  have hensured : Database.ensureSchema ses.client s db = (.ok (), db) := by
    rw [ensureSchema_apply, if_pos hshaped]
  rw [prepare, hopen, if_neg Bool.false_ne_true, Step.bind_ok hschema, Step.bind_ok hensured]
  rfl

/-- A type that a session has prepared is prepared for every other one, as long as its schema and its known shape stay. -/
theorem prepare_others (h : ses.prepare k db = (.ok s, db')) {ses' : Session} (hopen : ses'.disposed = false)
    (db₁ : Database) (hregistry : db₁.registry = db'.registry) (hshapes : db₁.shapes = db'.shapes) :
    ses'.prepare k db₁ = (.ok s, db₁) :=
  prepare_known (hregistry ▸ prepare_registered h) (hshapes ▸ prepare_current h) hopen

theorem prepare_again (h : ses.prepare k db = (.ok s, db')) (db₁ : Database) (hregistry : db₁.registry = db'.registry)
    (hshapes : db₁.shapes = db'.shapes) : ses.prepare k db₁ = (.ok s, db₁) :=
  prepare_others h (prepare_eq_ok h).1 db₁ hregistry hshapes

theorem prepare_reached (h : ses.prepare k db = (.ok s, db')) (hst : db.store.Reached fun _ => True) :
    db'.store.Reached fun _ => True := by
  have hstore := ses.prepare_store k db
  rw [h] at hstore
  obtain hsame | ⟨s', hupsert⟩ := hstore
  · exact (congrArg (Store.Reached _) hsame).mpr hst
  · exact (congrArg (Store.Reached _) hupsert).mpr (hst.call ses.client (Store.Client.Call.about_all _))

/-! ### Statements of a prepared type -/

section
variable (hprepared : ses.prepare k db = (.ok s, db')) {p : Predicate} {f : CompiledFilter}
  (hf : s.compileFilter dialect (some p) = .ok f)
include hprepared

theorem query_empty : ses.query k {} db = ses.onStore (Store.fetchAll s) db' := Step.bind_ok hprepared _

theorem countAll_eq : ses.countAll k db = ses.onStore (Store.count s) db' := Step.bind_ok hprepared _

include hf

theorem count_filter : ses.count k (({} : Query).filter p) db = ses.onStore (Store.countWhere s f) db' := by
  rw [count, Step.bind_ok hprepared]
  show (Step.ofExcept ((s.compileFilter dialect (some p)).mapError Error.query) >>= _) db' = _
  rw [hf]
  rfl

theorem query_filter :
    ses.query k (({} : Query).filter p) db = ses.onStore (Store.select (f.query s)) db' := by
  rw [query, Step.bind_ok hprepared]
  show (Step.ofExcept ((s.compileQuery dialect (({} : Query).filter p)).mapError Error.query) >>= _) db' = _
  rw [compileQuery_filter hf]
  rfl

/-- Found structures are deleted by their ids, and then the cache is cleared of the type. -/
theorem deleteQuery_eq : ses.deleteQuery k p db = (ses.onStore (Store.idsWhere s f) >>= fun ids =>
    if ids.isEmpty then pure 0
    else ses.onStore (Store.deleteMany s ids) >>= fun n => invalidateAll s >>= fun _ => pure n) db' := by
  rw [deleteQuery, Step.bind_ok hprepared]
  show (Step.ofExcept ((s.compileFilter dialect (some p)).mapError Error.query) >>= _) db' = _
  rw [hf]
  rfl

end

/-! ### Ways of asking -/

/-- All ways of asking by a predicate are refused for one reason, and nothing is changed by them. -/
structure Refused (ses : Session) (k : Kind) (s : Schema) (p : Predicate) (f : CompiledFilter) (db db' : Database)
    (x : Excess) : Prop where
  count : ses.count k (({} : Query).filter p) db = (.error (.store (.queryFailed (x.message (Store.countText s f)))), db')
  query : ses.query k (({} : Query).filter p) db = (.error (.store (.queryFailed (x.message (f.query s).text))), db')
  ids : ses.onStore (Store.idsWhere s f) db' = (.error (.store (.queryFailed (x.message (Store.idsText s f)))), db')
  delete : ses.deleteQuery k p db = (.error (.store (.queryFailed (x.message (Store.idsText s f)))), db')

/-- All ways of asking by a predicate come to the same structures of a set: as many are counted, their payloads are
    answered and their ids, in the same order, and they are deleted, with their index rows and nothing else. -/
structure Agreed (ses : Session) (k : Kind) (s : Schema) (t : Store.TableSet) (p : Predicate) (f : CompiledFilter)
    (db db' : Database) : Prop where
  count : ses.count k (({} : Query).filter p) db = (.ok (t.selected p).length, db')
  query : ses.query k (({} : Query).filter p) db = (.ok ((t.selected p).map (·.payload)), db')
  ids : ∃ ids, ses.onStore (Store.idsWhere s f) db' = (.ok ids, db') ∧ ids.map t.idDatum = (t.selected p).map (·.id)
  /-- the deletion tells how many there were, unless the cache fails to be cleared -/
  deleted : (ses.deleteQuery k p db).1 = .ok (t.selected p).length ∨
    ∃ e, (ses.deleteQuery k p db).1 = .error e ∧ (Database.onCache (Provider.clearFor s.key) db').1 = .error e
  /-- which one in memory never does -/
  told : (∀ c, db'.cache = some c → c.InMemory) → (ses.deleteQuery k p db).1 = .ok (t.selected p).length
  left : ∃ cache, (ses.deleteQuery k p db).2 = { db' with store := db'.store.putSet (t.unselected p), cache }
  again : ses.query k (({} : Query).filter p) (ses.deleteQuery k p db).2 = (.ok [], (ses.deleteQuery k p db).2)

section
variable {t : Store.TableSet} {p : Predicate} {f : CompiledFilter}

/-- Clearing the cache of a type when some of it was deleted. -/
theorem invalidateAll_apply (s : Schema) (db : Database) (store : Store) : ∃ cache,
    invalidateAll s { db with store } = ((Database.onCache (Provider.clearFor s.key) db).1, { db with store, cache }) := by
  rw [invalidateAll, Database.onCache, Database.onCache]
  dsimp only
  split
  · exact ⟨db.cache, rfl⟩
  · exact ⟨_, rfl⟩

theorem onCache_clearFor_ok {db : Database} (h : ∀ c, db.cache = some c → c.InMemory) (key : Key) :
    (Database.onCache (Provider.clearFor key) db).1 = .ok () := by
  rw [Database.onCache]
  split
  · rfl
  · rename_i c hc
    obtain ⟨q, hq, -⟩ := Provider.clearFor_held (h c hc) key
    rw [hq]
    rfl

/-- A deletion by a predicate leaves the set without the structures that the predicate holds for; it fails at most in
    clearing the cache. -/
theorem deleteQuery_apply (hst : db'.store.Reached fun _ => True) (hclient : ses.client.closed = false)
    (hprepared : ses.prepare k db = (.ok s, db')) (hset : db'.store.set? s = some t) (hvalid : t.ValidIds s)
    (hf : s.compileFilter dialect (some p) = .ok f) (htaken : Store.refusal (f.query s) db'.store = .ok ()) :
    ∃ cleared cache, (cleared = .ok () ∨ cleared = (Database.onCache (Provider.clearFor s.key) db').1) ∧
      ses.deleteQuery k p db = (cleared.map fun _ => (t.selected p).length,
        { db' with store := db'.store.putSet (t.unselected p), cache }) := by
  have hn := hst.filed
  have howned := (hst.everywhere Store.kept_owned).get hset
  have hfindable := (hst.everywhere Store.kept_findable).get hset
  obtain ⟨ids, hids, hdata⟩ := Store.idsOf_selected hvalid p
  have hfound : ses.onStore (Store.idsWhere s f) db' = (.ok ids, db') := by
    rw [onStore_apply hclient, Store.idsWhere_eq hn hset hf, htaken]
    exact congrArg (·, db') hids
  have hdelete := Store.deleteMany_selected hset (hn.stem hset) hvalid howned hfindable hdata
  rw [deleteQuery_eq hprepared hf, Step.bind_ok hfound]
  cases ids with
  | nil =>
    -- deleting nothing is what was to be done
    have hnothing : Store.deleteMany s [] db'.store = (.ok 0, db'.store) := by
      rw [Store.deleteMany, Store.writing, Step.transaction, Store.idChunks, Store.chunks]
      rfl
    rw [hnothing] at hdelete
    obtain ⟨hcount, hstore⟩ := Prod.mk.inj hdelete
    refine ⟨.ok (), db'.cache, Or.inl rfl, ?_⟩
    rw [← hstore, ← Except.ok.inj hcount]
    rfl
  | cons id ids =>
    obtain ⟨cache, hclear⟩ := invalidateAll_apply s db' (db'.store.putSet (t.unselected p))
    have hdone : ses.onStore (Store.deleteMany s (id :: ids)) db' = (.ok (t.selected p).length,
        { db' with store := db'.store.putSet (t.unselected p) }) := by
      rw [onStore_apply hclient, hdelete]
    refine ⟨_, cache, Or.inr rfl, ?_⟩
    rw [List.isEmpty_cons, if_neg Bool.false_ne_true, Step.bind_ok hdone, Step.bind_apply, hclear]
    cases (Database.onCache (Provider.clearFor s.key) db').1 <;> rfl

theorem refused {x : Excess} (hst : db'.store.Reached fun _ => True) (hclient : ses.client.closed = false)
    (hprepared : ses.prepare k db = (.ok s, db')) (hset : db'.store.set? s = some t)
    (hf : s.compileFilter dialect (some p) = .ok f) (hrefused : Store.refusal (f.query s) db'.store = .error x) :
    Refused ses k s p f db db' x := by
  have hids : ses.onStore (Store.idsWhere s f) db' =
      (.error (.store (.queryFailed (x.message (Store.idsText s f)))), db') := by
    rw [onStore_apply hclient, Store.idsWhere_eq hst.filed hset hf, hrefused]
  refine ⟨?_, ?_, hids, ?_⟩
  · rw [count_filter hprepared hf, onStore_apply hclient, Store.countWhere_eq hst.filed hset hf, hrefused]
  · rw [query_filter hprepared hf, onStore_apply hclient, Store.select_query hst.filed hset hf, hrefused]
  · rw [deleteQuery_eq hprepared hf, Step.bind_error hids]

theorem agreed (hst : db'.store.Reached fun _ => True) (hclient : ses.client.closed = false)
    (hprepared : ses.prepare k db = (.ok s, db')) (hset : db'.store.set? s = some t) (hvalid : t.ValidIds s)
    (hf : s.compileFilter dialect (some p) = .ok f) (htaken : Store.refusal (f.query s) db'.store = .ok ()) :
    Agreed ses k s t p f db db' := by
  have hn := hst.filed
  have hstem : Store.folded t.stem = Store.folded s.stem := hn.stem hset
  obtain ⟨ids, hids, hdata⟩ := Store.idsOf_selected hvalid p
  obtain ⟨cleared, cache, hcleared, hdelete⟩ := deleteQuery_apply hst hclient hprepared hset hvalid hf htaken
  refine ⟨?_, ?_, ⟨ids, ?_, hdata⟩, ?_, ?_, ⟨cache, congrArg Prod.snd hdelete⟩, ?_⟩
  · rw [count_filter hprepared hf, onStore_apply hclient, Store.countWhere_eq hn hset hf, htaken]
  · rw [query_filter hprepared hf, onStore_apply hclient, Store.select_query hn hset hf, htaken]
  · rw [onStore_apply hclient, Store.idsWhere_eq hn hset hf, htaken]
    exact congrArg (·, db') hids
  · rw [hdelete]
    rcases hcleared with rfl | rfl
    · exact Or.inl rfl
    · cases (Database.onCache (Provider.clearFor s.key) db').1 with
      | ok _ => exact Or.inl rfl
      | error e => exact Or.inr ⟨e, rfl, rfl⟩
  · intro hmemory
    rw [hdelete]
    rcases hcleared with rfl | rfl
    · rfl
    · rw [onCache_clearFor_ok hmemory]
      rfl
  · have hset' : (db'.store.putSet (t.unselected p)).set? s = some (t.unselected p) := Store.set?_putSet_self hstem
    have hagain := prepare_again hprepared (ses.deleteQuery k p db).2 (by rw [hdelete]) (by rw [hdelete])
    rw [query_filter hagain hf, onStore_apply hclient, hdelete, Store.select_query (hn.putSet _) hset' hf,
      Store.refusal_unselected hn hset hf htaken, t.selected_unselected]
    rfl

/-- Asking by a predicate. Over a set as calls lead to it, whose ids are valid, the engine refuses all ways of asking by a
    predicate for the same reason, or they all come to the same structures; these are what a deletion takes out with
    their index rows, telling how many they were if the cache can be cleared, and nothing is found from then on. The
    empty query, which is not compiled, gets what it would get if it were, and everything is counted. -/
theorem filters_agree (hst : db.store.Reached fun _ => True) (hclient : ses.client.closed = false)
    (hprepared : ses.prepare k db = (.ok s, db')) (hset : db'.store.set? s = some t) :
    (t.ValidIds s → ∀ p f, s.compileFilter dialect (some p) = .ok f →
      match Store.refusal (f.query s) db'.store with
      | .error x => Refused ses k s p f db db' x
      | .ok () => Agreed ses k s t p f db db') ∧
    let payloads := Store.orderedPayloads t.rows
    ∃ c, s.compileQuery dialect {} = .ok c ∧ ses.onStore (Store.select c) db' = (.ok payloads, db') ∧
      ses.query k {} db = (.ok payloads, db') ∧ ses.countAll k db = (.ok payloads.length, db') := by
  have hst' := prepare_reached hprepared hst
  refine ⟨fun hvalid p f hf => ?_, ?_⟩
  · cases hrefusal : Store.refusal (f.query s) db'.store with
    | error x => exact refused hst' hclient hprepared hset hf hrefusal
    | ok _ => exact agreed hst' hclient hprepared hset hvalid hf hrefusal
  · obtain ⟨c, hc, hselect⟩ := Store.select_empty hset hst'.filed
    refine ⟨c, hc, ?_, ?_, ?_⟩
    · rw [onStore_apply hclient, hselect]
    · rw [query_empty hprepared, onStore_apply hclient, Store.fetchAll_eq hset]
    · rw [countAll_eq hprepared, onStore_apply hclient, Store.count_eq hset]

end

/-- Tasks, and a database with three of them. -/
def taskKind : Kind where
  ns := ""
  name := "Task"
  idType := .identity
  describe := (·.declareAll [.member "Priority" .integer false false])
  read? _ := none

def taskSchema : Schema := .ofShape "" "Task" .identity [⟨"Priority", "Integer", .integer, false, false⟩]

def taskDatabase : Database :=
  let insert (id : Int) (payload : String) (priority : Int) : Store.Client × Store.Client.Call :=
    ({}, .insert taskSchema (.identity id) payload [⟨"Priority", .integer, .integer priority⟩])
  { config := {}
    store := (Store.perform .create {}).2.after
      [({}, .upsert taskSchema), insert 1 "sweep" 2, insert 2 "rest" 1, insert 3 "mow" 2] }

theorem reached_tasks : taskDatabase.store.Reached fun _ => True :=
  (Store.Reached.manage (.opened ":memory:" false) .create).calls fun x _ => x.2.about_all

def taskSet : Store.TableSet where
  stem := "Task"
  affinity := .integer
  rows := [⟨.integer 1, "sweep"⟩, ⟨.integer 2, "rest"⟩, ⟨.integer 3, "mow"⟩]
  indexRows := [⟨.integer 1, "Priority", .integer, .integer 2⟩, ⟨.integer 2, "Priority", .integer, .integer 1⟩,
    ⟨.integer 3, "Priority", .integer, .integer 2⟩]
  indexes := Store.indexesOf taskSchema

def taskSession : Session := { mode := .ignore }

theorem prepare_tasks : ∃ db', taskSession.prepare taskKind taskDatabase = (.ok taskSchema, db') ∧
    db'.store.set? taskSchema = some taskSet ∧ db'.cache = none := by
  have hrun : (taskSession.prepare taskKind taskDatabase).1 = .ok taskSchema ∧
      (taskSession.prepare taskKind taskDatabase).2.store.set? taskSchema = some taskSet ∧
      (taskSession.prepare taskKind taskDatabase).2.cache.isNone = true := by decide +kernel
  obtain ⟨hanswer, hset, hcache⟩ := hrun
  exact ⟨_, Prod.ext hanswer rfl, hset, Option.isNone_iff_eq_none.mp hcache⟩

theorem validIds_tasks : taskSet.ValidIds taskSchema := by
  unfold Store.TableSet.ValidIds
  decide +kernel

/-- Two of the tasks are pressing; once they are deleted the other one is left. -/
theorem filters_agree_tasks :
    let p : Predicate := .compare (.new "Priority" .integer) .ge (.integer 2)
    let q := ({} : Query).filter p
    (taskSession.count taskKind q taskDatabase).1 = .ok 2 ∧
      (taskSession.query taskKind q taskDatabase).1 = .ok ["sweep", "mow"] ∧
      (taskSession.deleteQuery taskKind p taskDatabase).1 = .ok 2 ∧
      (taskSession.query taskKind q (taskSession.deleteQuery taskKind p taskDatabase).2).1 = .ok [] ∧
      (taskSession.query taskKind {} taskDatabase).1 = .ok ["sweep", "rest", "mow"] ∧
      (taskSet.unselected p).rows = [⟨.integer 2, "rest"⟩] ∧
      (taskSet.unselected p).indexRows = [⟨.integer 2, "Priority", .integer, .integer 1⟩] := by
  intro p q
  obtain ⟨db', hprepared, hset, hcache⟩ := prepare_tasks
  obtain ⟨hfilters, c, -, -, hall, -⟩ := filters_agree reached_tasks rfl hprepared hset
  obtain ⟨f, hf⟩ : ∃ f, taskSchema.compileFilter dialect (some p) = .ok f := ⟨_, rfl⟩
  have htaken : Store.refusal (f.query taskSchema) db'.store = .ok () := by
    cases hf
    rfl
  have hagreed := hfilters validIds_tasks p f hf
  rw [htaken] at hagreed
  have hselected : taskSet.selected p = [⟨.integer 1, "sweep"⟩, ⟨.integer 3, "mow"⟩] := by
    have hrows : taskSet.rowsWhere (taskSet.admits p) = [⟨.integer 1, "sweep"⟩, ⟨.integer 3, "mow"⟩] := by decide +kernel
    rw [Store.TableSet.selected, hrows]
    exact List.mergeSort_of_pairwise (by decide)
  have hrows : Store.byId taskSet.rows = taskSet.rows := List.mergeSort_of_pairwise (by decide +kernel)
  have htold := hagreed.told fun c hc => absurd (hcache.symm.trans hc) nofun
  rw [hagreed.count, hagreed.query, hagreed.again, hall, htold, hselected, Store.orderedPayloads, hrows]
  refine ⟨rfl, rfl, rfl, rfl, congrArg Except.ok ?_, ?_, ?_⟩ <;> decide +kernel

/-- A predicate may have more parts than the engine takes: it is compiled, but no way of asking by it is answered. -/
theorem filters_refused : ∃ db' f, taskDatabase.store.Reached (fun _ => True) ∧
    taskSession.prepare taskKind taskDatabase = (.ok taskSchema, db') ∧ db'.store.set? taskSchema = some taskSet ∧
    taskSet.ValidIds taskSchema ∧
    taskSchema.compileFilter dialect (some (.asked (.new "Priority" .integer) 1001)) = .ok f ∧
    taskSession.count taskKind (({} : Query).filter (.asked (.new "Priority" .integer) 1001)) taskDatabase =
      (.error (.store (.queryFailed "Expression tree is too large (maximum depth 1000)")), db') := by
  obtain ⟨db', hprepared, hset, -⟩ := prepare_tasks
  have hresolve : taskSchema.resolve (.new "Priority" .integer) = .ok ⟨"Priority", "Integer", .integer, false, false⟩ := by
    decide
  have hf := compileFilter_asked hresolve dialect 1000
  have hst := prepare_reached hprepared reached_tasks
  have hrefused := refused hst rfl hprepared hset hf (refusal_asked hresolve (le_refl 1000) hf db'.store)
  have htext : "Expression tree is too large (maximum depth " ++ String.ofList (Text.decimal Sql.greatestHeight) ++ ")" =
      "Expression tree is too large (maximum depth 1000)" := by decide +kernel
  have hmessage (sql : String) : Excess.height.message sql = "Expression tree is too large (maximum depth 1000)" := htext
  exact ⟨db', _, reached_tasks, hprepared, hset, validIds_tasks, hf, hmessage _ ▸ hrefused.count⟩

end Session

end DocStore
