import DocStore.Proofs.Service
import DocStore.Proofs.Store.Separation

/-! What is not touched. All types share one store, one registry, one record of shapes and one cache; what is done with
    one of them goes by its key and by the names of its tables, so whoever has another key and other tables keeps all
    that is held of it, whether what is done succeeds or fails half way. -/

namespace DocStore

open Cache (Provider)
open Store (Reached Named Untouched Beside FourTables)

/-- A type that is kept elsewhere: under another key and in other tables. -/
def Schema.Elsewhere (s u : Schema) : Prop := s.key ≠ u.key ∧ FourTables s u

namespace Database

/-- From one database to the next nothing of a type has changed: neither its set with its unique indexes, its
    fingerprint and the identity it has next, nor the shape it is known to have, its registered schema and its entry in
    the cache. -/
structure Spared (u : Schema) (db₀ db : Database) : Prop where
  store : Untouched u db₀.store db.store
  shape : db.shapes.fingerprints.get? u.key = db₀.shapes.fingerprints.get? u.key
  schema : db.registry.get? u.key = db₀.registry.get? u.key
  cached : db.cache.bind (·.entryOf? u.key) = db₀.cache.bind (·.entryOf? u.key)

/-- A database whose store and whose cache, if it has one, are such as calls lead to. -/
structure Tidy (db : Database) : Prop where
  store : db.store.Reached fun _ => True
  cache : ∀ {p}, db.cache = some p → p.Sound

/-- A tidy database in which nothing of some types has changed. -/
structure Sparing (others : Schema → Prop) (db₀ db : Database) : Prop where
  tidy : db.Tidy
  spared : ∀ {u}, others u → Spared u db₀ db

/-- A type of another key than a kind of structures, kept elsewhere than the schema that the kind goes by. -/
def Separates (k : Kind) (u : Schema) (db : Database) : Prop :=
  k.key ≠ u.key ∧ ∀ s, (schemaOf k db).1 = .ok s → s.Elsewhere u

section
variable {others : Schema → Prop} {db₀ db db' : Database} {s u : Schema} {k : Kind}

theorem Spared.refl (u : Schema) (db : Database) : Spared u db db := ⟨.refl .., rfl, rfl, rfl⟩

theorem Spared.trans {db'' : Database} (h : Spared u db db') (h' : Spared u db' db'') : Spared u db db'' where
  store := h.store.trans h'.store
  shape := h'.shape.trans h.shape
  schema := h'.schema.trans h.schema
  cached := h'.cached.trans h.cached

namespace Sparing

theorem refl (hdb : db.Tidy) : Sparing others db db := ⟨hdb, fun _ => .refl ..⟩

theorem step (h : Sparing others db₀ db) (htidy : db'.Tidy) (hspared : ∀ {u}, others u → Spared u db db') :
    Sparing others db₀ db' :=
  ⟨htidy, fun hu => (h.spared hu).trans (hspared hu)⟩

end Sparing

/-! ### Parts -/

/-- A change of the registry and the record of shapes alone. -/
theorem Sparing.noted (h : Sparing others db₀ db) {registry : Registry} {shapes : UpsertedShapes}
    (hregistry : ∀ {u}, others u → registry.get? u.key = db.registry.get? u.key)
    (hshapes : ∀ {u}, others u → shapes.fingerprints.get? u.key = db.shapes.fingerprints.get? u.key) :
    Sparing others db₀ { db with registry, shapes } :=
  h.step ⟨h.tidy.store, h.tidy.cache⟩ fun hu => ⟨.refl .., hshapes hu, hregistry hu, rfl⟩

/-- A call about a type that is not one of the others. -/
theorem onStore_sparing (hs : ∀ {u}, others u → s.Elsewhere u) (c : Store.Client) (call : Store.Client.Call)
    (hcall : call.Of s) {α : Type} {m : Store.Do α} {f : α → Store.Client.Reply} (hm : c.perform call = m.map f) :
    Step.Keeps (Sparing others db₀) (onStore m) := by
  refine .of_state fun db hdb => ?_
  have hend : (m db.store).2 = (c.perform call db.store).2 := by rw [hm, Step.map_state]
  show Sparing others db₀ { db with store := (m db.store).2 }
  rw [hend]
  refine hdb.step ⟨hdb.tidy.store.call c call.about_all, hdb.tidy.cache⟩ fun {u} hu => ⟨?_, rfl, rfl, rfl⟩
  obtain ⟨hkey, hfour⟩ := hs hu
  exact (c.perform_beside (Store.fourTables_iff.mp hfour) hkey hcall).untouched hdb.tidy.store.filed

/-- What is done with the entry of a type that is not one of the others. -/
theorem onEntry_sparing {key : Key} (hkey : ∀ {u}, others u → key ≠ u.key) (m : Cache.Entry.Do Unit) :
    Step.Keeps (Sparing others db₀) (onCache (Provider.onRegistered key () m)) := by
  refine .of_state fun db hdb => ?_
  rw [onCache]
  split
  · exact hdb
  · rename_i p hp
    have haside : Provider.AsideIn key db.cache (some (Provider.onRegistered key () m p).2) :=
      hp ▸ .some fun hs => .onRegistered hs () m
    exact hdb.step ⟨hdb.tidy.store, haside.sound hdb.tidy.cache⟩ fun hu =>
      ⟨.refl .., rfl, rfl, haside.entryOf? hdb.tidy.cache (hkey hu).symm⟩

/-! ### Sets -/

theorem upsertWith_sparing (hs : ∀ {u}, others u → s.Elsewhere u) (c : Store.Client) :
    Step.Keeps (Sparing others db₀) (upsertWith c s) := by
  refine .andThen (onEntry_sparing (fun hu => (hs hu).1) _) fun _ => ?_
  refine .andThen (onStore_sparing hs c (.upsert s) rfl rfl) fun _ => ?_
  refine .update fun db hdb => hdb.noted (fun _ => rfl) fun {u} hu => ?_
  rw [UpsertedShapes.mark, Assoc.get?_insert, if_neg (hs hu).1]

theorem ensureSchema_sparing (hs : ∀ {u}, others u → s.Elsewhere u) (c : Store.Client) :
    Step.Keeps (Sparing others db₀) (ensureSchema c s) := by
  refine .state fun db _ => ?_
  split
  · exact .pure trivial
  · exact upsertWith_sparing hs c

theorem dropSchema_sparing (hs : ∀ {u}, others u → s.Elsewhere u) :
    Step.Keeps (Sparing others db₀) (dropSchema s) := by
  refine .andThen (onEntry_sparing (fun hu => (hs hu).1) _) fun _ => ?_
  refine .andThen (onStore_sparing hs {} (.drop s) rfl rfl) fun _ => ?_
  refine .update fun db hdb => hdb.noted (fun {u} hu => ?_) fun {u} hu => ?_
  · rw [Registry.get?, Registry.remove, Assoc.get?_erase, if_neg (hs hu).1, Registry.get?]
  · rw [UpsertedShapes.forget, Assoc.get?_erase, if_neg (hs hu).1]

theorem dropKeys_sparing {ks : List Key} (hdb : Sparing others db₀ db)
    (hks : ∀ key ∈ ks, ∀ s, db.registry.get? key = some s → ∀ {u}, others u → s.Elsewhere u) :
    Sparing others db₀ (dropKeys ks db).2 := by
  have hquery : (Step.query fun db => schemasOf db.registry ks : Do (List Schema)) db =
      (schemasOf db.registry ks, db) := rfl
  rw [dropKeys, Step.bind_apply, hquery]
  cases hss : schemasOf db.registry ks with
  | error e => exact hdb
  | ok ss =>
    have hall : Step.Keeps (Sparing others db₀) (Step.forEach dropSchema ss) := .forEach fun s hs => by
      obtain ⟨key, hkey, hget⟩ := get?_of_mem_schemasOf hss s hs
      exact dropSchema_sparing (hks key hkey s hget)
    exact (hall db hdb).1

/-! ### Kinds -/

theorem schemaOf_sparing (hk : ∀ {u}, others u → k.key ≠ u.key) : Step.Keeps (Sparing others db₀) (schemaOf k) := by
  refine .of_whole (.transaction _) fun {db s db'} hdb h => ?_
  obtain ⟨registry, hget, rfl⟩ := schemaOf_eq_ok h
  exact hdb.noted (fun hu => (Registry.get?_getOrBuild hget).2 _ (hk hu)) fun _ => rfl

/-- What comes after the schema of a kind goes by this schema, which is the registered one from then on. -/
theorem schemaOf_bind_sparing (hdb : db.Tidy) (hk : ∀ {u}, others u → Separates k u db) {α : Type}
    {f : Schema → Do α} (hf : ∀ {s db'}, (∀ {u}, others u → s.Elsewhere u) → db'.registry.get? k.key = some s →
      Sparing others db db' → Sparing others db (f s db').2) : Sparing others db ((schemaOf k >>= f) db).2 := by
  have hfirst := (schemaOf_sparing (fun hu => (hk hu).1) db (.refl hdb)).1
  cases hs : schemaOf k db with
  | mk r db' =>
    rw [hs] at hfirst
    cases r with
    | error e => rwa [Step.bind_error hs]
    | ok s =>
      rw [Step.bind_ok hs]
      obtain ⟨registry, hget, rfl⟩ := schemaOf_eq_ok hs
      exact hf (fun hu => (hk hu).2 s (by rw [hs])) (Registry.get?_getOrBuild hget).1 hfirst

theorem upsertSet_sparing (hdb : db.Tidy) (hk : ∀ {u}, others u → Separates k u db) :
    Sparing others db (upsertSet k db).2 :=
  schemaOf_bind_sparing hdb hk fun hs _ hdb' => (upsertWith_sparing hs {} _ hdb').1

theorem dropSet_sparing (hdb : db.Tidy) (hk : ∀ {u}, others u → Separates k u db) :
    Sparing others db (dropSet k db).2 :=
  schemaOf_bind_sparing hdb hk fun hs hregistered hdb' => dropKeys_sparing hdb' fun key hkey s' hget => by
    rw [List.mem_singleton.mp hkey, hregistered] at hget
    cases hget
    exact hs

end

end Database

/-! ### Sessions -/

/-- A call that writes rows of a set is about this set. -/
theorem Store.Client.Call.of_writesTo {s : Schema} {call : Store.Client.Call} (h : call.WritesTo s) : call.Of s := by
  cases call with
  | insert | replace | deleteMany | deleteInterval | reserve => exact h
  | _ => cases h

namespace Session

open Database (Sparing Separates)

variable {others : Schema → Prop} {db₀ db : Database} {s : Schema} {ses : Session} {α : Type}

theorem Enclosed.sparing {m : Database.Do α} (hm : ses.Enclosed s m) (hs : ∀ {u}, others u → s.Elsewhere u) :
    Step.Keeps (Sparing others db₀) m := by
  refine .of_state fun db hdb => ?_
  obtain ⟨run, cache, guids, hrun, hend⟩ := hm.confined db
  have hcached := hm.cached db
  rw [hend] at hcached ⊢
  refine hdb.step ⟨hdb.tidy.store.calls fun x _ => x.2.about_all, hcached.sound hdb.tidy.cache⟩ fun {u} hu => ?_
  obtain ⟨hkey, hfour⟩ := hs hu
  have hbeside : ∀ x ∈ run, Beside u (x.1.perform x.2) := fun x hx =>
    x.1.perform_beside (Store.fourTables_iff.mp hfour) hkey (Store.Client.Call.of_writesTo (hrun x hx).2)
  exact ⟨(Store.after_beside hbeside hdb.tidy.store.filed).2.1, rfl, rfl, hcached.entryOf? hdb.tidy.cache hkey.symm⟩

/-- Whatever a session is asked to do with a type, it touches no type that is kept elsewhere. -/
theorem perform_sparing (ses : Session) (c : Call) (hdb : db.Tidy) (hk : ∀ {u}, others u → Separates c.kind u db) :
    Sparing others db (ses.perform c db).2 := by
  obtain ⟨e, h⟩ | ⟨rest, h, hrest⟩ := ses.perform_enclosed c
  · rw [h]
    exact .refl hdb
  · rw [h, prepare]
    split
    · exact .refl hdb
    · rw [Step.bind_assoc]
      refine Database.schemaOf_bind_sparing hdb hk fun {s db'} hs _ hdb' => ?_
      rw [Step.bind_assoc]
      exact ((Database.ensureSchema_sparing hs ses.client).andThen (fun _ => (hrest s).sparing hs) db' hdb').1

end Session

end DocStore
