import DocStore.Database
import DocStore.Proofs.Cache.Fetching
import DocStore.Proofs.Store.Writes

/-! A database and the same database without its cache. The cache of a coherent database holds nothing but what
    the store holds too, so the two answer alike; every operation leaves the database coherent. -/

namespace DocStore.Database

open Cache (Provider)
open Store (Filed Writes Apart)

variable {types : Schema → Prop}

/-! ### Coherence -/

/-- The payload is what the table of the type stores under the id. -/
def Stores (types : Schema → Prop) (st : Store) (k : Key) (id : DocId) (payload : String) : Prop :=
  ∃ s, types s ∧ s.key = k ∧ id.idType = s.idType ∧ st.payload? s id = some payload

/-- The cache is in memory and holds what is stored, but for some ids that it may hold anything for. -/
structure CoherentBut (types : Schema → Prop) (stale : Key → DocId → Prop) (db : Database) : Prop where
  registry : ∀ e ∈ db.registry.schemas, types e.2
  filed : db.store.Filed types
  memory : ∀ {p}, db.cache = some p → p.InMemory
  held : ∀ {p}, db.cache = some p → ∀ {k id payload}, p.held? k id = some payload → ¬stale k id →
    Stores types db.store k id payload

/-- The cache is in memory and holds nothing but what is stored. -/
abbrev Coherent (types : Schema → Prop) (db : Database) : Prop := CoherentBut types (fun _ _ => False) db

theorem CoherentBut.of_blank {db : Database} (hregistry : ∀ e ∈ db.registry.schemas, types e.2)
    (hfiled : db.store.Filed types) (hblank : ∀ {p}, db.cache = some p → p.Blank) : Coherent types db where
  registry := hregistry
  filed := hfiled
  memory hp := (hblank hp).memory
  held hp k id payload hx _ := by
    rw [(hblank hp).held] at hx
    cases hx

/-- The database without its cache. -/
def uncached (db : Database) : Database := { db with cache := none }

namespace CoherentBut

variable {stale stale' : Key → DocId → Prop} {db : Database}

theorem mono (hdb : CoherentBut types stale db) (h : ∀ k id, stale k id → stale' k id) : CoherentBut types stale' db :=
  ⟨hdb.registry, hdb.filed, hdb.memory, fun hp _ _ _ hx hno => hdb.held hp hx fun hs => hno (h _ _ hs)⟩

/-- Of a change of neither the store nor the cache only the registry matters. -/
theorem of_frame (hdb : CoherentBut types stale db) {db' : Database} (hstore : db'.store = db.store)
    (hcache : db'.cache = db.cache) (hregistry : ∀ e ∈ db'.registry.schemas, types e.2) :
    CoherentBut types stale db' where
  registry := hregistry
  filed := hstore ▸ hdb.filed
  memory hp := hdb.memory (hcache ▸ hp)
  held hp _ _ _ hx hno := hstore ▸ hdb.held (hcache ▸ hp) hx hno

theorem shrunk (hdb : CoherentBut types stale db) {p q : Provider} (hp : db.cache = some p)
    (hpq : Provider.Shrunk p q) :
    CoherentBut types stale { db with cache := some q } where
  registry := hdb.registry
  filed := hdb.filed
  memory := by
    rintro _ ⟨⟩
    exact hpq.memory
  held := by
    rintro _ ⟨⟩ k id payload hx hno
    exact hdb.held hp (hpq.held hx) hno

theorem cleaned (hdb : CoherentBut types stale db) {p q : Provider} (hp : db.cache = some p)
    (hpq : Provider.Shrunk p q) (hclean : ∀ k id, stale k id → q.held? k id = none) :
    Coherent types { db with cache := some q } where
  registry := hdb.registry
  filed := hdb.filed
  memory := by
    rintro _ ⟨⟩
    exact hpq.memory
  held := by
    rintro _ ⟨⟩ k id payload hx -
    refine hdb.held hp (hpq.held hx) fun hs => ?_
    rw [hclean k id hs] at hx
    cases hx

theorem gained (hdb : Coherent types db) {k : Key} {new : DocId → String → Prop} {p q : Provider}
    (hp : db.cache = some p) (hpq : Provider.Gained k new p q)
    (hnew : ∀ {id payload}, new id payload → Stores types db.store k id payload) :
    Coherent types { db with cache := some q } where
  registry := hdb.registry
  filed := hdb.filed
  memory := by
    rintro _ ⟨⟩
    exact hpq.memory
  held := by
    rintro _ ⟨⟩ k' id payload hx -
    rcases hpq.held hx with hold | ⟨rfl, hn⟩
    · exact hdb.held hp hold not_false
    · exact hnew hn

theorem wrote (hdb : Coherent types db) {s : Schema} {lost : DocId → Prop} {st : Store}
    (hw : Store.Wrote types s.key lost db.store st) :
    CoherentBut types (fun k id => k = s.key ∧ lost id) { db with store := st } where
  registry := hdb.registry
  filed := hw.filed
  memory := hdb.memory
  held hp k id payload hx hno := by
    obtain ⟨s', hs', rfl, hid, hpayload⟩ := hdb.held hp hx not_false
    exact ⟨s', hs', rfl, hid, hw.kept hs' hid hno hpayload⟩

end CoherentBut

/-- The cache holds nothing for a type. -/
def Vacant (k : Key) (db : Database) : Prop := ∀ {p}, db.cache = some p → ∀ id, p.held? k id = none

theorem CoherentBut.of_vacant {stale : Key → DocId → Prop} {db : Database} (hdb : CoherentBut types stale db)
    (hv : ∀ k id, stale k id → db.Vacant k) : Coherent types db where
  registry := hdb.registry
  filed := hdb.filed
  memory := hdb.memory
  held hp k id payload hx _ := by
    refine hdb.held hp hx fun hs => ?_
    rw [hv k id hs hp] at hx
    cases hx

/-! ### Steps that do the same without the cache -/

/-- A step that does the same without the cache; it leaves what is said if it answers, a coherent database if it
    fails. -/
structure Tracked (types : Schema → Prop) {α : Type} (J : α → Database → Prop) (m : Do α) (db : Database) : Prop where
  same : m db.uncached = ((m db).1, (m db).2.uncached)
  ok : ∀ {a db'}, m db = (.ok a, db') → J a db'
  error : ∀ {e db'}, m db = (.error e, db') → Coherent types db'

/-- A step to which the cache makes no difference. -/
abbrev Transparent (types : Schema → Prop) {α : Type} (m : Do α) (db : Database) : Prop :=
  Tracked types (fun _ => Coherent types) m db

namespace Tracked

variable {α β : Type} {J : α → Database → Prop} {K : β → Database → Prop} {db : Database}

theorem of_run {m : Do α} {r : Except Error α} {db' : Database} (hrun : m db = (r, db'))
    (hsame : m db.uncached = (r, db'.uncached)) (hok : ∀ {a}, r = .ok a → J a db')
    (herror : ∀ {e}, r = .error e → Coherent types db') : Tracked types J m db := by
  refine ⟨by rw [hrun, hsame], ?_, ?_⟩
  · intro a db'' h
    rw [hrun] at h
    cases h
    exact hok rfl
  · intro e db'' h
    rw [hrun] at h
    cases h
    exact herror rfl

theorem bind {m : Do α} {f : α → Do β} (hm : Tracked types J m db)
    (hf : ∀ {a db'}, J a db' → Tracked types K (f a) db') : Tracked types K (m >>= f) db := by
  cases hmd : m db with
  | mk r db' =>
    have hsame := hm.same
    rw [hmd] at hsame
    cases r with
    | error e => exact of_run (Step.bind_error hmd f) (Step.bind_error hsame f) nofun fun _ => hm.error hmd
    | ok a =>
      -- the second step begins in the same database on both sides, but for the cache
      have hnext := hf (hm.ok hmd)
      have hrest : (m >>= f) db.uncached = ((f a db').1, (f a db').2.uncached) :=
        (Step.bind_ok hsame f).trans hnext.same
      exact of_run (Step.bind_ok hmd f) hrest (fun h => hnext.ok (Prod.ext h rfl)) fun h =>
        hnext.error (Prod.ext h rfl)

theorem mono {J' : α → Database → Prop} {m : Do α} (hm : Tracked types J m db) (h : ∀ {a db'}, J a db' → J' a db') :
    Tracked types J' m db :=
  ⟨hm.same, fun hok => h (hm.ok hok), hm.error⟩

/-- What a step leaves is left by that step. -/
theorem noted {m : Do α} (hm : Tracked types J m db) : Tracked types (fun a db' => m db = (.ok a, db') ∧ J a db') m db :=
  ⟨hm.same, fun hok => ⟨hok, hm.ok hok⟩, hm.error⟩

theorem pure {a : α} (h : J a db) : Tracked types J (pure a) db :=
  of_run rfl rfl (fun heq => Except.ok.inj heq ▸ h) nofun

theorem fail (hdb : Coherent types db) (e : Error) : Tracked types J (Step.fail e) db :=
  of_run rfl rfl nofun fun _ => hdb

theorem change {f : Database → α × Database} (hsame : f db.uncached = ((f db).1, (f db).2.uncached))
    (h : J (f db).1 (f db).2) : Tracked types J (Step.change f) db :=
  of_run rfl (congrArg (fun x : α × Database => (Except.ok x.1, x.2)) hsame) (fun heq => Except.ok.inj heq ▸ h) nofun

theorem update {J : Unit → Database → Prop} {f : Database → Database} (hsame : f db.uncached = (f db).uncached)
    (h : J () (f db)) : Tracked types J (Step.update f) db :=
  of_run rfl (congrArg (Except.ok (), ·) hsame) (fun _ => h) nofun

theorem ofExcept (hdb : Coherent types db) {r : Except Error α} (h : ∀ {a}, r = .ok a → J a db) :
    Tracked types J (Step.ofExcept r) db := by
  cases r with
  | error e => exact fail hdb e
  | ok a => exact pure (h rfl)

theorem checked (hdb : Coherent types db) (r : Except Error α) :
    Transparent types (Step.ofExcept r) db :=
  ofExcept hdb fun _ => hdb

/-- A step that looks at the database, but not at its cache, first. -/
theorem state {f : Database → Do α} (hsame : f db.uncached = f db) (hf : Tracked types J (f db) db) :
    Tracked types J (Step.state >>= f) db := by
  have hstate (db : Database) : (Step.state >>= f) db = f db db := rfl
  refine ⟨?_, fun h => hf.ok h, fun h => hf.error h⟩
  rw [hstate, hstate, hsame]
  exact hf.same

theorem query (hdb : Coherent types db) {f : Database → Except Error α} (hsame : f db.uncached = f db)
    (hf : ∀ {a}, f db = .ok a → J a db) : Tracked types J (Step.query f) db := by
  have hquery (db : Database) : Step.query f db = Step.ofExcept (f db) db := rfl
  have hread := ofExcept hdb hf
  refine ⟨?_, fun h => hread.ok h, fun h => hread.error h⟩
  rw [hquery, hquery, hsame]
  exact hread.same

theorem transaction (hdb : Coherent types db) {f : Database → Except Error (α × Database)}
    (hsame : f db.uncached = (f db).map fun x => (x.1, x.2.uncached)) (hf : ∀ {a db'}, f db = .ok (a, db') → J a db') :
    Tracked types J (Step.transaction f) db := by
  cases hr : f db with
  | error e =>
    rw [hr] at hsame
    exact of_run (Step.transaction_error hr) (Step.transaction_error hsame) nofun fun _ => hdb
  | ok x =>
    rw [hr] at hsame
    refine of_run (Step.transaction_ok hr) (Step.transaction_ok hsame) (fun heq => ?_) nofun
    cases heq
    exact hf hr

theorem forEach {f : α → Do Unit} : ∀ {items : List α} {db : Database}, Coherent types db →
    (∀ a ∈ items, ∀ {db}, Coherent types db → Transparent types (f a) db) →
    Transparent types (Step.forEach f items) db
  | [], _, hdb, _ => pure hdb
  | a :: _, _, hdb, hf =>
    (hf a (List.mem_cons_self ..) hdb).bind fun h => forEach h fun a ha => hf a (List.mem_cons_of_mem _ ha)

theorem map {m : Do α} {f : α → β} (hm : Tracked types (fun a => K (f a)) m db) : Tracked types K (m.map f) db :=
  hm.bind fun h => pure h

end Tracked

/-! ### Parts -/

section
variable {α : Type} {db : Database}

theorem onStore_apply (m : Store.Do α) (db : Database) :
    onStore m db = ((m db.store).1, { db with store := (m db.store).2 }) := rfl

theorem Tracked.onStore {J : α → Database → Prop} {m : Store.Do α}
    (hok : ∀ {a st}, m db.store = (.ok a, st) → J a { db with store := st })
    (herror : ∀ {e st}, m db.store = (.error e, st) → Coherent types { db with store := st }) :
    Tracked types J (onStore m) db :=
  .of_run (onStore_apply m db) (onStore_apply m db.uncached) (fun h => hok (Prod.ext h rfl)) fun h =>
    herror (Prod.ext h rfl)

theorem Tracked.reading (hdb : Coherent types db) {m : Store.Do α} (hread : ∀ st, (m st).2 = st) :
    Transparent types (Database.onStore m) db := by
  have hsame {r : Except Error α} {st : Store} (h : m db.store = (r, st)) : { db with store := st } = db := by
    have hst := hread db.store
    rw [h] at hst
    rw [show st = db.store from hst]
  exact .onStore (fun h => (hsame h).symm ▸ hdb) fun h => (hsame h).symm ▸ hdb

/-- A write. What it loses may still be in the cache. -/
theorem Tracked.writing (hdb : Coherent types db) {s : Schema} {lost : DocId → Prop} {m : Store.Do α}
    (hw : Writes types s.key lost m) :
    Tracked types (fun _ => CoherentBut types fun k id => k = s.key ∧ lost id) (Database.onStore m) db := by
  refine .onStore (fun h => hdb.wrote (hw.ok hdb.filed h)) fun h => ?_
  rw [hw.error h]
  exact hdb

theorem Tracked.adding (hdb : Coherent types db) {s : Schema} {m : Store.Do α}
    (hw : Writes types s.key (fun _ => False) m) :
    Transparent types (Database.onStore m) db :=
  (Tracked.writing hdb hw).mono fun h => h.mono fun _ _ hs => hs.2

theorem Tracked.onCache {J : Unit → Database → Prop} {m : Provider.Do Unit} (hnone : db.cache = none → J () db)
    (hsome : ∀ {p}, db.cache = some p → ∃ q, m p = (.ok (), q) ∧ J () { db with cache := some q }) :
    Tracked types J (onCache m) db := by
  cases hcache : db.cache with
  | none =>
    have happly : Database.onCache m db = (.ok (), db) := by rw [Database.onCache, hcache]
    exact .of_run happly rfl (fun _ => hnone hcache) nofun
  | some p =>
    obtain ⟨q, hq, hJ⟩ := hsome hcache
    have happly : Database.onCache m db = (.ok (), { db with cache := some q }) := by
      rw [Database.onCache, hcache]
      dsimp only
      rw [hq]
      rfl
    exact .of_run happly rfl (fun _ => hJ) nofun

/-- A read through the cache that answers what a read of the store answers. -/
theorem Tracked.consuming (hdb : Coherent types db) {plain : Store.Do α} {cached : Step Error (Provider × Store) α}
    {r : Except Error α} (hplain : plain db.store = (r, db.store))
    (hcached : ∀ {p}, db.cache = some p → ∃ q, cached (p, db.store) = (r, (q, db.store)) ∧
      Coherent types { db with cache := some q }) :
    Transparent types (consuming plain cached) db := by
  have hwithout : Database.consuming plain cached db.uncached = (r, db.uncached) := by
    show Database.onStore plain db.uncached = _
    rw [onStore_apply, show db.uncached.store = db.store from rfl, hplain]
    rfl
  cases hcache : db.cache with
  | none =>
    have happly : Database.consuming plain cached db = (r, db) := by
      rw [Database.consuming, hcache]
      dsimp only
      rw [onStore_apply, hplain]
    exact .of_run happly hwithout (fun _ => hdb) fun _ => hdb
  | some p =>
    obtain ⟨q, hq, hcoherent⟩ := hcached hcache
    have happly : Database.consuming plain cached db = (r, { db with cache := some q }) := by
      rw [Database.consuming, hcache]
      dsimp only
      rw [hq]
    exact .of_run happly hwithout (fun _ => hcoherent) fun _ => hcoherent

end

/-! ### Steps that leave the same without the cache -/

/-- A step that leaves the same without the cache, whatever it answers, and a coherent database. -/
structure Followed (types : Schema → Prop) {α : Type} (m : Do α) (db : Database) : Prop where
  same : (m db.uncached).2 = (m db).2.uncached
  coherent : Coherent types (m db).2

section
variable {α β : Type} {db : Database}

theorem Transparent.followed {m : Do α} (hm : Transparent types m db) : Followed types m db where
  same := congrArg Prod.snd hm.same
  coherent := by
    cases hmd : m db with
    | mk r db' =>
      cases r with
      | ok a => exact hm.ok hmd
      | error e => exact hm.error hmd

theorem Transparent.map_followed {m : Do α} {f : α → β} (hm : Transparent types m db) : Followed types (m.map f) db :=
  Transparent.followed (.map hm)

theorem Tracked.bind_followed {J : α → Database → Prop} {m : Do α} {f : α → Do β} (hm : Tracked types J m db)
    (hf : ∀ {a db'}, J a db' → Followed types (f a) db') : Followed types (m >>= f) db := by
  cases hmd : m db with
  | mk r db' =>
    have hsame := hm.same
    rw [hmd] at hsame
    cases r with
    | error e =>
      refine ⟨?_, ?_⟩
      · rw [Step.bind_error hsame, Step.bind_error hmd]
      · rw [Step.bind_error hmd]
        exact hm.error hmd
    | ok a =>
      have hnext := hf (hm.ok hmd)
      refine ⟨?_, ?_⟩
      · rw [Step.bind_ok hsame, Step.bind_ok hmd]
        exact hnext.same
      · rw [Step.bind_ok hmd]
        exact hnext.coherent

/-- What is made of an answer without the database does not matter. -/
theorem Followed.answer {m : Do α} {f : α → Do β} (hm : Followed types m db) (hf : ∀ a db, (f a db).2 = db) :
    Followed types (m >>= f) db := by
  have hstate (db : Database) : ((m >>= f) db).2 = (m db).2 := by
    rw [Step.bind_apply]
    cases m db with
    | mk r db' =>
      cases r with
      | error e => rfl
      | ok a => exact hf a db'
  refine ⟨?_, ?_⟩
  · rw [hstate, hstate, hm.same]
  · rw [hstate]
    exact hm.coherent

theorem Followed.consuming (hdb : Coherent types db) {plain : Store.Do α} {cached : Step Error (Provider × Store) α}
    (hplain : (plain db.store).2 = db.store)
    (hcached : ∀ {p}, db.cache = some p → ∃ r q, cached (p, db.store) = (r, (q, db.store)) ∧
      Coherent types { db with cache := some q }) :
    Followed types (Database.consuming plain cached) db := by
  have hwithout : (Database.consuming plain cached db.uncached).2 = db.uncached := by
    show { db.uncached with store := (plain db.store).2 } = db.uncached
    rw [hplain]
    rfl
  cases hcache : db.cache with
  | none =>
    have hstate : (Database.consuming plain cached db).2 = db := by
      rw [Database.consuming, hcache]
      show { db with store := (plain db.store).2 } = db
      rw [hplain]
    exact ⟨by rw [hwithout, hstate], by rwa [hstate]⟩
  | some p =>
    obtain ⟨r, q, hq, hcoherent⟩ := hcached hcache
    have hstate : (Database.consuming plain cached db).2 = { db with cache := some q } := by
      rw [Database.consuming, hcache]
      dsimp only
      rw [hq]
    exact ⟨by rw [hwithout, hstate]; rfl, by rwa [hstate]⟩

end

end DocStore.Database
