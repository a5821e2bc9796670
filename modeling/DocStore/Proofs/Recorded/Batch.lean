import DocStore.Proofs.Documents.Service
import DocStore.Proofs.Recorded.Service
import DocStore.Proofs.Session.Batch

/-! Batches after any calls. A prepared set of identities has its tables and its counter, so a client that is open gets
    the block that a batch needs; whether the batch is inserted is then a matter of its ids alone. -/

namespace DocStore

open Session (Insertable Outcome Part Ready StoredAs blockOf blockTooLarge explicitIds greatestBlock identityLimit missing
  numbered)
open Store (Apart TableSet)

/-! ### Prepared sets -/

theorem Store.TableSet.Of.integral {s : Schema} {t : TableSet} (ht : t.Of s) (hs : s.idType.isIdentity = true) :
    t.Integral where
  affinity := by
    rw [ht.affinity, Sql.Affinity.ofIdType, if_pos hs]
  ids r hr := by
    obtain ⟨id, hid, heq⟩ := ht.ids r hr
    rw [← hid] at hs
    cases id with
    | identity n | bigIdentity n => exact ⟨n, heq⟩
    | guid | string => cases hs

namespace Service

variable {types : Schema → Prop}

/-- What a session has prepared is there, and so is the counter of its identities. -/
theorem prepared_identified (ha : Apart types) {db₀ : Database} (hstore : db₀.store.Reached types)
    (hsets : db₀.store.sets = []) (hregistry : db₀.registry.schemas = []) (hshapes : db₀.shapes.fingerprints = [])
    {cs : List Call} (hcs : ∀ c ∈ cs, ∀ s, c.Brings s → types s) {ses : Session} {k : Kind}
    (hk : ∀ {s}, k.schema = .ok s → types s) {s : Schema} {db : Database}
    (hprepared : ses.prepare k (after { database := db₀ } cs).database = (.ok s, db)) :
    types s ∧ ∃ t, db.store.set? s = some t ∧ t.Of s ∧ (s.idType.isIdentity = true → db.store.Identified s) := by
  have hstart : Database.Recorded types db₀ :=
    ⟨by rw [hregistry]; exact nofun, hstore, by rw [hshapes]; exact nofun⟩
  have hempty : db₀.InStep types db₀.config.excluded := ⟨rfl, hstart.registry, Store.inStep_of_empty hsets⟩
  have hbegin : Database.Recorded types (Service.mk db₀ []).database := hstart
  have hrecorded := (invariant_recorded ha.stem).after hbegin hcs
  have hinStep : Database.InStep types db₀.config.excluded (after { database := db₀ } cs).database :=
    after_inStep ha hempty fun c hc {s} => hcs c hc s
  obtain ⟨hdb, hs⟩ := Database.invariant_recorded.prepare ses hk _ hrecorded
  have hfiled := ((Database.invariant_inStep ha).prepare ses hk _ hinStep).1
  rw [hprepared] at hdb hs hfiled
  have hs := hs s rfl
  have hfp := hdb.fingerprint? (Session.prepare_current hprepared)
  obtain ⟨s₀, hs₀, hkey, -, hshaped⟩ := (hdb.store.carries ha.stem hs hfp).shaped
  obtain ⟨t, hset⟩ := hshaped.set
  rw [Store.set?_congr ((ha.stem hs₀ hs).mp hkey)] at hset
  obtain ⟨b, hb, -⟩ := Option.bind_eq_some_iff.mp hfp
  have hof := hfiled.store.filed.of hs hset
  exact ⟨hs, t, hset, hof, fun hidentity =>
    ⟨hdb.store.named ha.stem, Option.isSome_of_eq_some hb, t, hset, hof.integral hidentity⟩⟩

/-- Batches are inserted. After any calls on a database that began empty, a client that is open gets the identities that a
    batch needs for a prepared type, unless these are more than can be reserved at once, and then the batch is refused
    with nothing written. If they are in range, a batch that nothing is wrong with is inserted whole unless one of its
    items carries an id of the block: each item is stored under the id that it carries or the next one of the block, and
    all of them differ. If an item does carry an id of the block, the batch fails, as the two items that come to have
    this id cannot both be stored. -/
theorem batch_inserted (ha : Apart types) (hbuilt : ∀ {s}, types s → s.Builds) {db₀ : Database}
    (hstore : db₀.store.Reached types) (hsets : db₀.store.sets = []) (hregistry : db₀.registry.schemas = [])
    (hshapes : db₀.shapes.fingerprints = []) {cs : List Call} (hcs : ∀ c ∈ cs, ∀ s, c.Brings s → types s) {ses : Session}
    (hopen : ses.client.closed = false) {k : Kind} (hk : ∀ {s}, k.schema = .ok s → types s) {s : Schema} {db : Database}
    (hprepared : ses.prepare k (after { database := db₀ } cs).database = (.ok s, db)) (hidentity : s.idType.isIdentity = true)
    (hmemory : ∀ c, db.cache = some c → c.InMemory) :
    ∃ t, db.store.set? s = some t ∧ ∀ {items ps}, Insertable db.config.excluded s t items ps →
      let answer := ses.insertMany k items (after { database := db₀ } cs).database
      (greatestBlock < missing ps → answer = (.error (blockTooLarge (missing ps)), db)) ∧
      (missing ps ≤ greatestBlock → ∃ first, ses.client.Reserves s (missing ps) first db.store ∧
        ((0 < missing ps → first + missing ps ≤ identityLimit s.idType) →
          let new := blockOf s.idType first (missing ps)
          ((∀ id ∈ explicitIds ps, id ∉ new) → (numbered ps new).Nodup ∧ answer.1 = .ok (numbered ps new) ∧
            ∃ t', answer.2.store.set? s = some t' ∧
              List.Forall₂ (StoredAs db.config.excluded s t') items (numbered ps new)) ∧
          ((∃ id ∈ explicitIds ps, id ∈ new) → answer.1 = .error (.store (.queryFailed t.notNew))))) := by
  obtain ⟨hs, t, hset, hof, hidentified⟩ := prepared_identified ha hstore hsets hregistry hshapes hcs hk hprepared
  refine ⟨t, hset, fun {items ps} hbatch => ?_⟩
  intro answer
  refine ⟨Session.insertMany_tooLarge hidentity hprepared hbatch.nonempty hbatch.reads, fun hblock => ?_⟩
  obtain ⟨first, hfirst⟩ := Store.reserve_answers (hidentified hidentity) hidentity hopen (missing ps)
  refine ⟨first, hfirst, fun hroom => ?_⟩
  have hready : Ready db.config.excluded s (Session.allEntries ps) t db :=
    ⟨rfl, hmemory, hset, hof,
      Store.free_of_not_clashes (hbuilt hs) (Session.member_of_reads hbatch.reads) hbatch.clear⟩
  have hout := Session.insertMany_outcome hopen (hbuilt hs) hidentity hprepared hbatch.nonempty hbatch.reads hready hblock
    hfirst hroom
  have hnew := Session.new_numbered Session.length_blockOf.symm hbatch.explicit (Session.new_blockOf hset hof hfirst)
  intro new
  change Outcome _ s t items (numbered ps new) answer at hout
  cases hanswer : answer with
  | mk r db' =>
    rw [hanswer] at hout
    cases hout with
    | @inserted _ t' hall hset' _ hstored =>
      refine ⟨fun _ => ⟨hall.1, rfl, t', hset', hstored⟩, ?_⟩
      rintro ⟨id, hid, hin⟩
      exact absurd hin (hnew.mp hall id hid)
    | refused hnot => exact ⟨fun hdisjoint => absurd (hnew.mpr hdisjoint) hnot, fun _ => rfl⟩

/-- Stamps, no two of which have the same code. -/
def stampKind : Kind where
  ns := ""
  name := "Stamp"
  idType := .identity
  describe := (·.declareAll [.member "Code" .integer true false])
  read? _ := none

def stampSchema : Schema := .ofShape "" "Stamp" .identity [⟨"Code", "Integer", .integer, true, false⟩]

def stamp (code : Int) (id? : Option DocId) : Item := ⟨.ok (.object [("Code", .integer code)]), id?⟩

def stampPart (code : Int) (given : Option DocId) : Part := ⟨given, [⟨"Code", .integer, .integer code⟩]⟩

/-- A database is created, and gets one stamp. -/
def stampCalls : List Call := [.manage .create, .openSession "desk", .session "desk" (.insert stampKind (stamp 1 none))]

def stampDatabase : Database := (after { database := { config := {} } } stampCalls).database

def stampSet : TableSet where
  stem := "Stamp"
  affinity := .integer
  rows := [⟨.integer 1, "\x7b\"Code\":1,\"StructureId\":1\x7d"⟩]
  indexRows := [⟨.integer 1, "Code", .integer, .integer 1⟩]
  indexes := Store.indexesOf stampSchema

def stampSession : Session := { mode := .ignore }

theorem prepare_stamps : ∃ db, stampSession.prepare stampKind stampDatabase = (.ok stampSchema, db) ∧
    db.store.set? stampSchema = some stampSet ∧ db.cache = none ∧ db.config.excluded = [] ∧
    stampSession.client.Reserves stampSchema 2 2 db.store := by
  have hrun : (stampSession.prepare stampKind stampDatabase).1 = .ok stampSchema ∧
      (stampSession.prepare stampKind stampDatabase).2.store.set? stampSchema = some stampSet ∧
      (stampSession.prepare stampKind stampDatabase).2.cache.isNone = true ∧
      (stampSession.prepare stampKind stampDatabase).2.config.excluded = [] ∧
      (stampSession.client.perform (.reserve stampSchema 2)
        (stampSession.prepare stampKind stampDatabase).2.store).1 = .ok (.identity 2) := by decide +kernel
  obtain ⟨hanswer, hset, hcache, hexcluded, hreserves⟩ := hrun
  refine ⟨(stampSession.prepare stampKind stampDatabase).2, ?_, hset, Option.isNone_iff_eq_none.mp hcache, hexcluded,
    hreserves⟩
  rw [← hanswer]

/-- The stamp that carries an id does not get in the way of the others: they have the ids behind the stored one. -/
theorem batch_inserted_stamps :
    (stampSession.insertMany stampKind [stamp 2 none, stamp 3 (some (.identity 40)), stamp 4 none] stampDatabase).1 =
      .ok [.identity 2, .identity 40, .identity 3] := by
  obtain ⟨db, hprepared, hset, hcache, hexcluded, hreserves⟩ := prepare_stamps
  have hcs : ∀ c ∈ stampCalls, ∀ s, c.Brings s → stampKind.schema = .ok s := by
    intro c hc s hs
    simp only [stampCalls, List.mem_cons, List.not_mem_nil, or_false] at hc
    rcases hc with rfl | rfl | rfl <;> first | exact hs | exact hs.elim
  obtain ⟨t, hset', hinserted⟩ := batch_inserted (apart_of_kind stampKind) (fun h => ⟨_, h⟩) (.opened ":memory:" false) rfl
    rfl rfl hcs rfl id hprepared rfl fun c hc => Option.some_ne_none c (hc.symm.trans hcache) |>.elim
  obtain rfl := Option.some.inj (hset.symm.trans hset')
  have hbatch : Insertable db.config.excluded stampSchema stampSet
      [stamp 2 none, stamp 3 (some (.identity 40)), stamp 4 none]
      [stampPart 2 none, stampPart 3 (some (.identity 40)), stampPart 4 none] := by
    rw [hexcluded]
    refine ⟨List.cons_ne_nil _ _, ?_, ?_, ?_⟩
    · exact .cons ⟨rfl, _, rfl, .identity 1, _, rfl⟩ (.cons ⟨rfl, _, rfl, .identity 1, _, rfl⟩
        (.cons ⟨rfl, _, rfl, .identity 1, _, rfl⟩ .nil))
    · unfold Session.New
      decide +kernel
    · unfold TableSet.Clashes
      decide +kernel
  obtain ⟨first, hfirst, hroom⟩ := (hinserted hbatch).2 (by decide)
  cases hfirst.symm.trans hreserves
  exact ((hroom fun _ => by decide +kernel).1 (by decide +kernel)).2.1

/-- The stamp that carries an id has the one that the other stamp of the batch is given. -/
theorem batch_refused_stamps : ∃ db, stampSession.prepare stampKind stampDatabase = (.ok stampSchema, db) ∧
    db.store.set? stampSchema = some stampSet ∧
    Insertable db.config.excluded stampSchema stampSet [stamp 2 none, stamp 3 (some (.identity 2))]
      [stampPart 2 none, stampPart 3 (some (.identity 2))] ∧
    (stampSession.insertMany stampKind [stamp 2 none, stamp 3 (some (.identity 2))] stampDatabase).1 =
      .error (.store (.queryFailed "UNIQUE constraint failed: StampStructure.StructureId")) := by
  obtain ⟨db, hprepared, hset, -, hexcluded, -⟩ := prepare_stamps
  refine ⟨db, hprepared, hset, ?_, by decide +kernel⟩
  rw [hexcluded]
  refine ⟨nofun, ?_, ?_, ?_⟩
  · exact .cons ⟨rfl, _, rfl, .identity 1, _, rfl⟩ (.cons ⟨rfl, _, rfl, .identity 1, _, rfl⟩ .nil)
  · unfold Session.New
    decide +kernel
  · unfold TableSet.Clashes
    decide +kernel

end Service

end DocStore
