import DocStore.Proofs.Cache.WriteBack
import DocStore.Proofs.Spared.Database

/-! Whole histories. Whatever calls came before, those of the cache and of the lifecycle included, store and cache are
    such as calls lead to, so from then on too each type is left alone by what is done with the others. -/

namespace DocStore

open Cache (Provider)
open Database (Tidy Separates Spared)

/-! ### Databases after calls -/

/-- A database is opened tidy, on a store that calls led to. -/
theorem Database.tidy_of_new {config : Config} {start : Database} (h : Database.new config = .ok start) {st : Store}
    (hst : st.Reached fun _ => True) : Tidy { start with store := st } where
  store := hst
  cache hp := by
    obtain ⟨-, -, h⟩ := bind_eq_ok.mp h
    cases h
    exact (Database.blank_cacheOf hp).memory.sound

theorem Database.onCache_tidy {m : Provider.Do Unit} (hm : ∀ {p : Provider}, p.Sound → (m p).2.Sound) :
    Step.Keeps Tidy (Database.onCache m) := by
  refine .of_state fun db hdb => ?_
  rw [Database.onCache]
  split
  · exact hdb
  · rename_i p hp
    exact ⟨hdb.store, fun hq => Option.some.inj hq ▸ hm (hdb.cache hp)⟩

theorem Database.manage_tidy (c : Store.Call) : Step.Keeps Tidy (Database.manage c) := by
  rw [Database.manage, Database.resetCaches, Step.bind_assoc]
  refine .andThen (Database.onCache_tidy fun {p} hp => ?_) fun _ => ?_
  · rw [Provider.clear_state]
    exact hp.clearEach _
  · exact .of_state fun db hdb => ⟨hdb.store.manage c, hdb.cache⟩

namespace Service

theorem onCache_tidy (c : Provider.Call) : Step.Keeps Tidy (onCache c) := by
  refine .of_state fun db hdb => ?_
  rw [onCache]
  split
  · exact hdb
  · rename_i p hp
    exact ⟨hdb.store, fun hq => Option.some.inj hq ▸ (hdb.cache hp).after (.call c)⟩

/-- Whatever a service is asked to do, its database stays tidy. -/
theorem perform_tidy (c : Call) : Step.Keeps (fun sv : Service => Tidy sv.database) (perform c) := by
  -- what spares other types leaves a tidy database, whether there are other types or not
  have hnone {k : Kind} {db : Database} {u : Schema} (hu : False) : Separates k u db := hu.elim
  cases c with
  | manage c => exact .map (onDatabase_keeps (Database.manage_tidy c))
  | isCreated | isDisposed name | mode name => exact .of_reads fun _ => rfl
  | register s => exact .map (onDatabase_keeps (.change fun db hdb => ⟨⟨hdb.store, hdb.cache⟩, trivial⟩))
  | upsertSet k => exact .map (onDatabase_keeps (.of_state fun _ hdb => (Database.upsertSet_sparing hdb hnone).tidy))
  | dropSet k => exact .map (onDatabase_keeps (.of_state fun _ hdb => (Database.dropSet_sparing hdb hnone).tidy))
  | dropKeys ks =>
    refine .map (onDatabase_keeps (.of_state fun db hdb => ?_))
    exact (Database.dropKeys_sparing (.refl hdb) fun _ _ _ _ _ hu => False.elim hu).tidy
  | cache c => exact onDatabase_keeps (onCache_tidy c)
  | openSession name => exact .map (.update fun _ hsv => hsv)
  | dispose name => exact .map (dispose_keeps name)
  | setMode name m => exact .map (.update fun _ hsv => hsv)
  | session name c =>
    refine .of_state fun sv hsv => ?_
    rw [perform, Step.map_state]
    exact (Session.perform_sparing _ c hsv hnone).tidy

theorem after_tidy : ∀ (cs : List Call) (sv : Service), Tidy sv.database → Tidy (after sv cs).database
  | [], _, hsv => hsv
  | c :: cs, sv, hsv => by
    have hnext := (perform_tidy c sv hsv).1
    show Tidy (after (perform c sv).2 cs).database
    exact after_tidy cs _ hnext

/-- Types are left alone. After any calls on a database, whatever a session is asked to do with a kind of structures,
    and whether its set is brought to its shape or dropped, successfully or not, nothing changes of a type that has
    another key and other tables: not its rows, index rows and unique indexes, not the identity it has next, its stored
    fingerprint and its known shape, neither its registered schema nor what the cache holds for it. -/
theorem others_spared {db₀ : Database} (hdb₀ : db₀.Tidy) (cs : List Call) {k : Kind} {u : Schema} :
    let db := (after { database := db₀ } cs).database
    Separates k u db →
      (∀ (ses : Session) (c : Session.Call), c.kind = k → Spared u db (ses.perform c db).2) ∧
        Spared u db (Database.upsertSet k db).2 ∧ Spared u db (Database.dropSet k db).2 := by
  intro db hu
  have hdb : db.Tidy := after_tidy cs { database := db₀ } hdb₀
  have hothers {k : Kind} (hu : Separates k u db) {u' : Schema} (h : u' = u) : Separates k u' db := h ▸ hu
  refine ⟨fun ses c hc => ?_, ?_, ?_⟩
  · exact (ses.perform_sparing c hdb (hothers (hc ▸ hu))).spared rfl
  · exact (Database.upsertSet_sparing hdb (hothers hu)).spared rfl
  · exact (Database.dropSet_sparing hdb (hothers hu)).spared rfl

/-- Items of a shop, and a type of its own whose name lacks only the underscore. -/
def itemKind : Kind where
  ns := "Shop"
  name := "Item"
  idType := .identity
  describe := id
  read? _ := none

def shopItemKind : Kind := { itemKind with ns := "", name := "ShopItem" }

def shopItemSchema : Schema := .ofShape "" "ShopItem" .identity []

/-- A database that gives every type an entry in its cache. -/
def shopDatabase : Database :=
  let config : Config := { cache := { enabled := true, autoEnable := true } }
  { config, cache := Database.cacheOf config.cache }

/-- One item of each type is written and read into the cache. -/
def shopCalls : List Call :=
  [.manage .create, .openSession "desk", .session "desk" (.insert itemKind ⟨.ok (.object []), none⟩),
    .session "desk" (.insert shopItemKind ⟨.ok (.object []), none⟩), .session "desk" (.get itemKind (.int 1) .payload),
    .session "desk" (.get shopItemKind (.int 1) .payload)]

/-- The set of the one type is dropped; the other one still has its item and its payload in the cache. -/
theorem others_spared_items :
    let db := (after { database := shopDatabase } shopCalls).database
    let db' := (Database.dropSet itemKind db).2
    Separates itemKind shopItemSchema db ∧ Spared shopItemSchema db db' ∧
      (db.store.sets.length, db'.store.sets.length, (db'.store.set? shopItemSchema).map (·.rows.length),
        (db'.cache.bind (·.entryOf? shopItemSchema.key)).map (·.payloads.length)) = (2, 1, some 1, some 1) := by
  intro db db'
  have hnew : Database.new shopDatabase.config = .ok shopDatabase := rfl
  have htidy : shopDatabase.Tidy := Database.tidy_of_new hnew (.opened ":memory:" false)
  have hnames : (Database.schemaOf itemKind db).1.map (fun s => (s.key, s.stem)) = .ok (⟨"Shop.Item"⟩, "Shop_Item") := by
    decide +kernel
  have hapart : Separates itemKind shopItemSchema db := by
    refine ⟨by decide, fun s hs => ?_⟩
    rw [hs] at hnames
    obtain ⟨hkey, hstem⟩ := Prod.mk.inj (Except.ok.inj hnames)
    refine ⟨by rw [hkey]; decide, Store.fourTables_iff.mpr ?_⟩
    rw [hstem]
    decide
  obtain ⟨-, -, hdrop⟩ := others_spared htidy shopCalls hapart
  exact ⟨hapart, hdrop, by decide +kernel⟩

end Service

end DocStore
