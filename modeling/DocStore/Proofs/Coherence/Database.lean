import DocStore.Proofs.Coherence.Tracked

/-! What a database does is the same without its cache, and leaves it coherent: whatever changes a set of a type
    has taken out of the cache what it holds for the type, and the lifecycle all that it holds. -/

namespace DocStore.Registry

variable {types : Schema → Prop} {r : Registry}

theorem mem_register (hr : ∀ e ∈ r.schemas, types e.2) {s : Schema} (hs : types s) :
    ∀ e ∈ (r.register s).2.schemas, types e.2 := by
  have hinsert : ∀ e ∈ r.schemas.insert s.key s, types e.2 := by
    intro e he
    rcases Assoc.mem_insert he with rfl | he
    · exact hs
    · exact hr e he
  unfold register
  split
  · split
    · exact hr
    · exact hinsert
  · exact hinsert

theorem getOrBuild_eq_ok {r' : Registry} {k : Key} {build : Except ValidationError Schema} {s : Schema}
    (h : r.getOrBuild k build = .ok (s, r')) (hr : ∀ e ∈ r.schemas, types e.2)
    (hbuild : ∀ {s}, build = .ok s → types s) :
    types s ∧ ∀ e ∈ r'.schemas, types e.2 := by
  rw [getOrBuild] at h
  cases hfound : r.get? k with
  | some s' =>
    rw [hfound] at h
    cases h
    exact ⟨hr _ (Assoc.mem_of_get? hfound), hr⟩
  | none =>
    rw [hfound] at h
    obtain ⟨s', hok, heq⟩ := map_eq_ok.mp h
    cases heq
    refine ⟨hbuild hok, fun e he => ?_⟩
    rcases Assoc.mem_insert he with rfl | he
    · exact hbuild hok
    · exact hr e he

/-- Registered is what is answered; what else is registered stays. -/
theorem get?_getOrBuild {r' : Registry} {k : Key} {build : Except ValidationError Schema} {s : Schema}
    (h : r.getOrBuild k build = .ok (s, r')) : r'.get? k = some s ∧ ∀ k', k ≠ k' → r'.get? k' = r.get? k' := by
  rw [getOrBuild] at h
  cases hfound : r.get? k with
  | some s' =>
    rw [hfound] at h
    cases h
    exact ⟨hfound, fun _ _ => rfl⟩
  | none =>
    rw [hfound] at h
    obtain ⟨s', -, heq⟩ := map_eq_ok.mp h
    cases heq
    exact ⟨(Assoc.get?_insert ..).trans (if_pos rfl), fun k' hne => (Assoc.get?_insert ..).trans (if_neg hne)⟩

end DocStore.Registry

namespace DocStore.Database

open Cache (Provider)
open Store (Writes Apart)

variable {types : Schema → Prop}

/-! ### Clearing and removing -/

section
variable {db : Database} {s : Schema}

theorem tracked_clearFor {lost : DocId → Prop} (hdb : CoherentBut types (fun k id => k = s.key ∧ lost id) db) :
    Tracked types (fun _ db => Coherent types db ∧ db.Vacant s.key) (onCache (Provider.clearFor s.key)) db := by
  refine .onCache (fun hnone => ?_) fun {p} hp => ?_
  · have hv : ∀ k, db.Vacant k := fun k p hp => by rw [hnone] at hp; cases hp
    exact ⟨hdb.of_vacant fun k _ _ => hv k, hv s.key⟩
  · obtain ⟨q, hq, hshrunk, hclear⟩ := Provider.clearFor_held (hdb.memory hp) s.key
    have hv : Vacant s.key { db with cache := some q } := by
      rintro _ ⟨⟩
      exact hclear
    exact ⟨q, hq, (hdb.shrunk hp hshrunk).of_vacant fun _ _ hs => hs.1 ▸ hv, hv⟩

theorem tracked_removeMany {ids : List DocId} (hdb : CoherentBut types (fun k id => k = s.key ∧ id ∈ ids) db) :
    Transparent types (onCache (Provider.removeMany s.key ids)) db := by
  refine .onCache (fun hnone => ?_) fun {p} hp => ?_
  · exact hdb.of_vacant fun _ _ _ p hp => by rw [hnone] at hp; cases hp
  · obtain ⟨q, hq, hshrunk, hremoved⟩ := Provider.removeMany_held (hdb.memory hp) s.key ids
    exact ⟨q, hq, hdb.cleaned hp hshrunk fun _ id hs => hs.1 ▸ hremoved id hs.2⟩

/-! ### Lifecycle -/

theorem tracked_resetCaches (hdb : Coherent types db) :
    Tracked types (fun _ db => Coherent types db ∧ ∀ k, db.Vacant k) resetCaches db := by
  have hclear : Tracked types (fun _ db => Coherent types db ∧ ∀ k, db.Vacant k) (onCache Provider.clear) db := by
    refine .onCache (fun hnone => ⟨hdb, fun k p hp => by rw [hnone] at hp; cases hp⟩) fun {p} hp => ?_
    obtain ⟨q, hq, hblank⟩ := Provider.clear_held (hdb.memory hp)
    refine ⟨q, hq, .of_blank hdb.registry hdb.filed ?_, ?_⟩
    · rintro _ ⟨⟩
      exact hblank
    · rintro k _ ⟨⟩
      exact hblank.held k
  exact hclear.bind fun h => .update rfl ⟨h.1.of_frame rfl rfl h.1.registry, h.2⟩

theorem tracked_manage (hdb : Coherent types db) (c : Store.Call) :
    Transparent types (manage c) db := by
  refine (tracked_resetCaches hdb).bind fun {_ db'} h => ?_
  have hafter {r : Except Error Unit} {st : Store} (hst : Store.perform c db'.store = (r, st)) :
      Coherent types { db' with store := st } := by
    -- the cache is empty by now, so it does not matter what becomes of the payloads
    have hfiled := h.1.filed.perform c
    rw [hst] at hfiled
    refine ⟨h.1.registry, hfiled, h.1.memory, fun hp k id payload hx _ => ?_⟩
    rw [h.2 k hp] at hx
    cases hx
  exact .onStore hafter hafter

/-! ### Schemas -/

theorem tracked_schemaOf (hdb : Coherent types db) {k : Kind} (hk : ∀ {s}, k.schema = .ok s → types s) :
    Tracked types (fun s db => Coherent types db ∧ types s) (schemaOf k) db := by
  refine .transaction hdb ?_ fun {s db'} h => ?_
  · have hregistry : db.uncached.registry = db.registry := rfl
    rw [hregistry]
    cases db.registry.getOrBuild k.key k.schema <;> rfl
  · cases hget : db.registry.getOrBuild k.key k.schema with
    | error e =>
      rw [hget] at h
      cases h
    | ok x =>
      rw [hget] at h
      cases h
      obtain ⟨hs, hregistry⟩ := Registry.getOrBuild_eq_ok hget hdb.registry hk
      exact ⟨hdb.of_frame rfl rfl hregistry, hs⟩

theorem schemaOf_eq_ok {k : Kind} {s : Schema} {db db' : Database} (h : schemaOf k db = (.ok s, db')) : ∃ registry,
    db.registry.getOrBuild k.key k.schema = .ok (s, registry) ∧ db' = { db with registry } := by
  have hdone := Step.transaction_eq_ok h
  split at hdone
  · rename_i s' registry hget
    cases hdone
    exact ⟨registry, hget, rfl⟩
  · cases hdone

theorem get?_of_mem_schemasOf {r : Registry} : ∀ {ks : List Key} {ss : List Schema}, schemasOf r ks = .ok ss →
    ∀ s ∈ ss, ∃ k ∈ ks, r.get? k = some s
  | [], _, h => by
    cases h
    exact nofun
  | k :: ks, ss, h => by
    rw [schemasOf] at h
    split at h
    · cases h
    · rename_i s hfound
      obtain ⟨rest, hrest, rfl⟩ := map_eq_ok.mp h
      intro s' hs'
      rcases List.mem_cons.mp hs' with rfl | hs'
      · exact ⟨k, List.mem_cons_self .., hfound⟩
      · obtain ⟨k', hk', hget⟩ := get?_of_mem_schemasOf hrest s' hs'
        exact ⟨k', List.mem_cons_of_mem _ hk', hget⟩

theorem types_schemasOf {r : Registry} (hr : ∀ e ∈ r.schemas, types e.2) {ks : List Key} {ss : List Schema}
    (h : schemasOf r ks = .ok ss) : ∀ s ∈ ss, types s := by
  intro s hs
  obtain ⟨k, -, hget⟩ := get?_of_mem_schemasOf h s hs
  exact hr _ (Assoc.mem_of_get? hget)

theorem tracked_register (hdb : Coherent types db) (hs : types s) :
    Transparent types (register s) db :=
  .change rfl (hdb.of_frame rfl rfl (Registry.mem_register hdb.registry hs))

/-! ### Sets -/

section
variable (ha : Apart types) (hs : types s)
include ha hs

theorem tracked_upsertWith (hdb : Coherent types db) (c : Store.Client) :
    Transparent types (upsertWith c s) db := by
  have hall : CoherentBut types (fun k id => k = s.key ∧ False) db := hdb.mono fun _ _ => False.elim
  refine (tracked_clearFor hall).bind fun h => ?_
  refine (Tracked.adding h.1 ((Store.upsert_writes ha hs).guarded c)).bind fun h => ?_
  exact .update rfl (h.of_frame rfl rfl h.registry)

theorem tracked_ensureSchema (hdb : Coherent types db) (c : Store.Client) :
    Transparent types (ensureSchema c s) db := by
  refine .state rfl ?_
  split
  · exact .pure hdb
  · exact tracked_upsertWith ha hs hdb c

theorem tracked_dropSchema (hdb : Coherent types db) : Transparent types (dropSchema s) db := by
  have hall : CoherentBut types (fun k id => k = s.key ∧ False) db := hdb.mono fun _ _ => False.elim
  refine (tracked_clearFor hall).bind fun {_ db'} h => ?_
  have hdrop : Transparent types (onStore (Store.drop s)) db' := by
    have hw := Store.drop_writes ha hs
    refine .onStore (fun hok => ?_) fun herror => ?_
    · exact (h.1.wrote (hw.ok h.1.filed hok)).of_vacant fun _ _ hstale => hstale.1 ▸ h.2
    · rw [hw.error herror]
      exact h.1
  exact hdrop.bind fun h => .update rfl (h.of_frame rfl rfl fun e he => h.registry e (List.mem_filter.mp he).1)

omit hs in
theorem tracked_dropKeys (hdb : Coherent types db) (ks : List Key) :
    Transparent types (dropKeys ks) db := by
  have hquery : Tracked types (fun ss db => Coherent types db ∧ ∀ s ∈ ss, types s)
      (Step.query fun db => schemasOf db.registry ks) db :=
    .query hdb rfl fun hss => ⟨hdb, types_schemasOf hdb.registry hss⟩
  exact hquery.bind fun h => .forEach h.1 fun s hs _ hdb => tracked_dropSchema ha (h.2 s hs) hdb

omit hs in
theorem tracked_dropSet (hdb : Coherent types db) {k : Kind} (hk : ∀ {s}, k.schema = .ok s → types s) :
    Transparent types (dropSet k) db :=
  (tracked_schemaOf hdb hk).bind fun h => tracked_dropKeys ha h.1 [k.key]

omit hs in
theorem tracked_upsertSet (hdb : Coherent types db) {k : Kind} (hk : ∀ {s}, k.schema = .ok s → types s) :
    Transparent types (upsertSet k) db :=
  (tracked_schemaOf hdb hk).bind fun h => tracked_upsertWith ha h.2 h.1 {}

end

end

/-! ### Opening -/

/-- A database as it is opened: set up from a configuration with the cache that it asks for, or with one of the
    caller's own that is in memory and holds nothing, on a store whose sets are those of their types. -/
def Opened (types : Schema → Prop) (db : Database) : Prop :=
  ∃ config start st, Store.Filed types st ∧ db = { start with store := st } ∧
    (new config = .ok start ∨ ∃ p, Provider.Blank p ∧ withCache config p = .ok start)

theorem blank_cacheOf {c : CacheConfig} {p : Provider} (h : cacheOf c = some p) : p.Blank := by
  have hall : ∀ (ks : List String) {p : Provider}, p.Blank → (ks.foldl (fun p k => (p.enableFor ⟨k⟩).2) p).Blank := by
    intro ks
    induction ks with
    | nil => exact fun hp => hp
    | cons k ks ih => exact fun hp => ih (hp.enableFor ⟨k⟩)
  rw [cacheOf] at h
  split at h <;> cases h
  exact hall _ (Provider.blank_new _)

theorem Opened.coherent {db : Database} (hdb : db.Opened types) : Coherent types db := by
  obtain ⟨config, start, st, hfiled, rfl, hstart⟩ := hdb
  rcases hstart with hnew | ⟨p, hp, hwith⟩
  · obtain ⟨-, -, h⟩ := bind_eq_ok.mp hnew
    cases h
    exact .of_blank nofun hfiled blank_cacheOf
  · obtain ⟨-, -, h⟩ := bind_eq_ok.mp hwith
    cases h
    exact .of_blank nofun hfiled fun h => Option.some.inj h ▸ hp

end DocStore.Database
