import DocStore.Proofs.Legible.Database
import DocStore.Proofs.Session.Selected

/-! Finding what is stored. In a coherent database whose ids can be read back, a structure of a prepared type is found by
    its id, alone and among others, and among the structures that a predicate holds for, if it holds for this one. -/

namespace DocStore.Session

open Database (Coherent Legible)
open Store (Apart TableSet)

variable {types : Schema → Prop} {ses : Session} {k : Kind} {s : Schema} {db db₁ : Database}

section
variable (ha : Apart types) (hk : ∀ {s}, k.schema = .ok s → types s) (hses : ses.Connected) (hdb : Coherent types db)
  (hprepared : ses.prepare k db = (.ok s, db₁))
include ha hk hdb hprepared

/-! ### Reads of a prepared type -/

theorem prepare_coherent : Coherent types db₁ ∧ types s := by
  obtain ⟨hcoherent, hs, -⟩ := (tracked_prepare ha hk hdb).ok hprepared
  exact ⟨hcoherent, hs⟩

theorem prepare_uncached : ses.prepare k db.uncached = (.ok s, db₁.uncached) := by
  have hsame : ses.prepare k db.uncached = ((ses.prepare k db).1, (ses.prepare k db).2.uncached) :=
    (tracked_prepare ha hk hdb).same
  rwa [hprepared] at hsame

variable {t : TableSet} (hset : db₁.store.set? s = some t)
include hses hset

theorem get_answer {raw : RawId} {id : DocId} (hid : convert s raw = .ok id) :
    (ses.get k raw db).1 = .ok (t.payload? id) := by
  have hopen := hses (prepare_eq_ok hprepared).1
  obtain ⟨hcoherent, hs⟩ := prepare_coherent ha hk hdb hprepared
  have hread := Store.fetch_of (hcoherent.filed.of hs hset) hset (idType_convert hid)
  have hwithout : ses.get k raw db.uncached = (.ok (t.payload? id), db₁.uncached) := by
    rw [get, Step.bind_ok (prepare_uncached ha hk hdb hprepared), hid]
    show Database.onStore (ses.client.guarded (Store.fetch s id)) db₁.uncached = _
    rw [Store.Client.guarded_open hopen, Database.onStore_apply, show db₁.uncached.store = db₁.store from rfl, hread]
    rfl
  have hsame := (tracked_get ha hk hses hdb raw).same
  rw [hwithout] at hsame
  exact (congrArg Prod.fst hsame).symm

theorem holds_answer {raw : RawId} {id : DocId} (hid : convert s raw = .ok id) :
    (ses.holds k raw db).1 = .ok (t.payload? id).isSome := by
  have hopen := hses (prepare_eq_ok hprepared).1
  obtain ⟨hcoherent, hs⟩ := prepare_coherent ha hk hdb hprepared
  have hread := Store.holds_of (hcoherent.filed.of hs hset) hset (idType_convert hid)
  have hwithout : ses.holds k raw db.uncached = (.ok (t.payload? id).isSome, db₁.uncached) := by
    rw [holds, Step.bind_ok (prepare_uncached ha hk hdb hprepared), hid]
    show Database.onStore (ses.client.guarded (Store.holds s id)) db₁.uncached = _
    rw [Store.Client.guarded_open hopen, Database.onStore_apply, show db₁.uncached.store = db₁.store from rfl, hread]
    rfl
  have hsame := (tracked_holds ha hk hses hdb raw).same
  rw [hwithout] at hsame
  exact (congrArg Prod.fst hsame).symm

theorem getMany_answer (hlegible : db₁.Legible types) {raws : List RawId} {ids : List DocId}
    (hids : convertSome s raws = .ok ids) : (ses.getMany k raws db).1 = .ok (ids.filterMap t.payload?) := by
  have hopen := hses (prepare_eq_ok hprepared).1
  obtain ⟨hcoherent, hs⟩ := prepare_coherent ha hk hdb hprepared
  have hof := hcoherent.filed.of hs hset
  have ht : t.Legible types := hlegible.store.get hset
  have hreturns : ∀ id ∈ ids, id.idType = s.idType ∧ t.Returns id := fun id hid =>
    have htype := idType_convertAll (convertSome_eq_ok hids).1 id hid
    ⟨htype, ht.returns hs hof htype⟩
  obtain ⟨rows, hrows, hall⟩ := Store.fetchMany_of hof hset hreturns
  have hwithout : ses.getMany k raws db.uncached = (.ok (ids.filterMap t.payload?), db₁.uncached) := by
    rw [getMany, Step.bind_ok (prepare_uncached ha hk hdb hprepared), hids]
    show Database.onStore (ses.fetchInOrder s ids) db₁.uncached = _
    rw [fetchInOrder, Store.Client.guarded_open hopen, Database.onStore_apply, show db₁.uncached.store = db₁.store from rfl,
      Step.bind_ok hrows]
    exact congrArg (fun payloads => (Except.ok payloads, db₁.uncached)) (List.filterMap_congr hall)
  have hraws : ∀ {s' db'}, ses.prepare k db = (.ok s', db') → types s' → ∀ raw ∈ raws, ∀ {id},
      convert s' raw = .ok id → ∀ p, db'.store.payload? s' id = some p → id.Readable := by
    intro s' db' hprepared' _ raw _ id hid p hp
    rw [hprepared] at hprepared'
    cases hprepared'
    exact ht.returns hs hof (idType_convert hid) p ((Store.payload?_of_set? hset id).symm.trans hp)
  have hsame := (tracked_getMany ha hk hses hdb hraws).same
  rw [hwithout] at hsame
  exact (congrArg Prod.fst hsame).symm

end

/-! ### Found structures -/

/-- A structure that is found by a session, in whichever way it is asked for by its id or by a predicate. -/
structure Found (ses : Session) (k : Kind) (s : Schema) (t : TableSet) (id : DocId) (payload : String)
    (db db₁ : Database) : Prop where
  back : Store.idOf s.idType id.datum = .ok id
  get : ∀ raw, convert s raw = .ok id → (ses.get k raw db).1 = .ok (some payload)
  holds : ∀ raw, convert s raw = .ok id → (ses.holds k raw db).1 = .ok true
  /-- whatever else is asked for with it -/
  getMany : ∀ raws ids, convertSome s raws = .ok ids → id ∈ ids →
    ∃ payloads, (ses.getMany k raws db).1 = .ok payloads ∧ payload ∈ payloads
  /-- unless the engine refuses the predicate as one that has too many parts -/
  filters : ∀ p f, s.compileFilter dialect (some p) = .ok f → match Store.refusal (f.query s) db₁.store with
    | .error x => Refused ses k s p f db db₁ x
    | .ok () => Agreed ses k s t p f db db₁ ∧ (t.admits p id.datum = true → ⟨id.datum, payload⟩ ∈ t.selected p)

/-- Whatever the set of a prepared type holds is found. -/
theorem found_of_stored (ha : Apart types) (hk : ∀ {s}, k.schema = .ok s → types s) (hses : ses.Connected)
    (hdb : Coherent types db) (hlegible : db.Legible types) (hst : db.store.Reached fun _ => True)
    (hprepared : ses.prepare k db = (.ok s, db₁)) {id : DocId} (hid : id.idType = s.idType) {payload : String}
    (hstored : db₁.store.payload? s id = some payload) :
    ∃ t, db₁.store.set? s = some t ∧ Found ses k s t id payload db db₁ := by
  obtain ⟨t, hset, hpayload⟩ := Option.bind_eq_some_iff.mp hstored
  obtain ⟨hcoherent, hs⟩ := prepare_coherent ha hk hdb hprepared
  have hof := hcoherent.filed.of hs hset
  have hlegible₁ : db₁.Legible types := by
    have hkept := ((Database.invariant_legible ha).prepare ses hk db hlegible).1
    rwa [hprepared] at hkept
  have ht : t.Legible types := hlegible₁.store.get hset
  refine ⟨t, hset, hid ▸ ht.returns hs hof hid payload hpayload, fun raw hraw => ?_, fun raw hraw => ?_,
    fun raws ids hids hmem => ⟨_, getMany_answer ha hk hses hdb hprepared hset hlegible₁ hids, ?_⟩, fun p f hf => ?_⟩
  · rw [get_answer ha hk hses hdb hprepared hset hraw, hpayload]
  · rw [holds_answer ha hk hses hdb hprepared hset hraw, hpayload]
    rfl
  · exact List.mem_filterMap.mpr ⟨id, hmem, hpayload⟩
  · have hst₁ := prepare_reached hprepared hst
    have hclient := hses (prepare_eq_ok hprepared).1
    cases hrefusal : Store.refusal (f.query s) db₁.store with
    | error x => exact refused hst₁ hclient hprepared hset hf hrefusal
    | ok _ =>
      have hvalid : t.ValidIds s := ht.validIds hs hof.stem
      refine ⟨agreed hst₁ hclient hprepared hset hvalid hf hrefusal, fun hadmits => ?_⟩
      obtain ⟨r, hr, hrow, rfl⟩ := hof.payload?_eq_some.mp hpayload
      rw [← hrow] at hadmits ⊢
      exact TableSet.mem_selected.mpr ⟨hr, hadmits⟩

end DocStore.Session
