import DocStore.Proofs.Coherence.Session
import DocStore.Proofs.Service

/-! Whole histories. Whatever calls came before, a cache that only reads and removals have touched holds nothing
    but what is stored, and reads by id answer what they would answer if there had never been a cache. -/

namespace DocStore

open Cache (Provider)
open Database (Coherent Followed Tracked Transparent)
open Store (Apart)

variable {types : Schema → Prop}

/-! ### Calls of a session -/

namespace Session

theorem connected_dispose {ses ses' : Session} (h : ses.dispose = .ok ses') : ses'.Connected := by
  rw [dispose] at h
  split at h
  · cases h
  · split at h <;> cases h
    exact nofun

/-- A read by valid ids. -/
def Call.ReadsValid : Call → Prop
  | .get _ id _ | .holds _ id => id.Valid
  | .getMany _ ids _ => ∀ id ∈ ids, id.Valid
  | _ => False

section
variable (ha : Apart types) {ses : Session} (hses : ses.Connected) {db : Database} (hdb : Coherent types db)
include ha hses hdb

/-- A read by valid ids answers the same without the cache. -/
theorem tracked_perform {c : Call} (hk : ∀ {s}, c.kind.schema = .ok s → types s) (hc : c.ReadsValid) :
    Transparent types (ses.perform c) db := by
  cases c with
  | get k raw v => exact .map (tracked_getAs ha hk hses hdb raw v)
  | getMany k raws v => exact .map (tracked_getManyAs ha hk hses hdb hc v)
  | holds k raw => exact .map (tracked_holds ha hk hses hdb raw)
  | _ => cases hc

/-- Whatever a session is asked to do, it leaves the same without the cache. -/
theorem followed_perform {c : Call} (hk : ∀ {s}, c.kind.schema = .ok s → types s) :
    Followed types (ses.perform c) db := by
  cases c with
  | schema k => exact Transparent.map_followed ((tracked_prepare ha hk hdb).mono And.left)
  | get k raw v => exact (tracked_getAs ha hk hses hdb raw v).map_followed
  | getMany k raws v =>
    exact ((followed_getMany ha hk hses hdb raws).answer fun _ _ => rfl).answer fun _ _ => rfl
  | holds k raw => exact (tracked_holds ha hk hses hdb raw).map_followed
  | getInterval k low high => exact (tracked_getInterval ha hk hdb low high).map_followed
  | query k q v => exact (tracked_queryAs ha hk hdb q v).map_followed
  | count k q => exact (tracked_count ha hk hdb q).map_followed
  | countAll k => exact (tracked_count ha hk hdb {}).map_followed
  | raw k q v => exact (tracked_rawAs ha hk hdb q v).map_followed
  | insert k item => exact (tracked_insert ha hk hdb item).map_followed
  | insertMany k items => exact (tracked_insertMany ha hk hdb items).map_followed
  | insertJson k text => exact (tracked_insertJson ha hk hdb text).map_followed
  | insertManyJson k texts => exact (tracked_insertManyJson ha hk hdb texts).map_followed
  | update k item => exact (tracked_update ha hk hdb item).map_followed
  | delete k raw => exact (tracked_delete ha hk hdb raw).map_followed
  | deleteMany k raws => exact (tracked_deleteMany ha hk hdb raws).map_followed
  | deleteInterval k low high => exact (tracked_deleteInterval ha hk hdb low high).map_followed
  | deleteQuery k p => exact (tracked_deleteQuery ha hk hdb p).map_followed

end

end Session

/-! ### Calls of a service -/

namespace Service

/-- Whether a call puts payloads into the cache by itself. -/
def Call.puts : Call → Bool
  | .cache c => c.puts
  | _ => false

/-- A call about structures of some types that leaves it to reads to put payloads into the cache. -/
structure Call.Allowed (types : Schema → Prop) (c : Call) : Prop where
  brings : ∀ {s}, c.Brings s → types s
  puts : c.puts = false

/-- The service without the cache. -/
def uncached (sv : Service) : Service := { sv with database := sv.database.uncached }

/-- A service whose cache holds nothing but what is stored, and whose sessions are open until they are disposed of. -/
structure Coherent (types : Schema → Prop) (sv : Service) : Prop where
  database : Database.Coherent types sv.database
  sessions : ∀ name, (sv.session name).Connected

section
variable {sv : Service}

theorem Coherent.withSession (hsv : Coherent types sv) (name : String) {ses : Session} (hses : ses.Connected) :
    Coherent types { sv with sessions := sv.sessions.insert name ses } where
  database := hsv.database
  sessions name' := by
    rw [session_of_insert rfl]
    split
    · exact hses
    · exact hsv.sessions name'

theorem Coherent.withDatabase (hsv : Coherent types sv) {db : Database} (hdb : Database.Coherent types db) :
    Coherent types { sv with database := db } :=
  ⟨hdb, hsv.sessions⟩

theorem followed_onCache {db : Database} (hdb : Database.Coherent types db) {c : Provider.Call} (hc : c.puts = false) :
    Followed types (onCache c) db := by
  cases hcache : db.cache with
  | none =>
    have hstate : (onCache c db).2 = db := by rw [onCache, hcache]
    exact ⟨by rw [hstate]; rfl, by rwa [hstate]⟩
  | some p =>
    have hstate : (onCache c db).2 = { db with cache := some (Provider.perform c p).2 } := by rw [onCache, hcache]
    refine ⟨by rw [hstate]; rfl, ?_⟩
    rw [hstate]
    exact hdb.shrunk hcache (Provider.perform_shrunk (hdb.memory hcache) hc)

theorem followed_onDatabase (hsv : Coherent types sv) {α : Type} {m : Database.Do α}
    (hm : Followed types m sv.database) (f : α → Reply) :
    ((onDatabase m).map f sv.uncached).2 = ((onDatabase m).map f sv).2.uncached ∧
      Coherent types ((onDatabase m).map f sv).2 := by
  rw [Step.map_state, Step.map_state]
  exact ⟨congrArg (fun db => { sv with database := db }) hm.same, hsv.withDatabase hm.coherent⟩

/-- Whatever a service is asked to do, it leaves the same without the cache, and a coherent service. -/
theorem perform_followed (ha : Apart types) (hsv : Coherent types sv) {c : Call} (hc : c.Allowed types) :
    (perform c sv.uncached).2 = (perform c sv).2.uncached ∧ Coherent types (perform c sv).2 := by
  cases c with
  | manage c => exact followed_onDatabase hsv (Database.tracked_manage hsv.database c).followed _
  | isCreated | isDisposed name | mode name => exact ⟨rfl, hsv⟩
  | register s => exact followed_onDatabase hsv (Database.tracked_register hsv.database (hc.brings rfl)).followed _
  | upsertSet k => exact followed_onDatabase hsv (Database.tracked_upsertSet ha hsv.database hc.brings).followed _
  | dropSet k => exact followed_onDatabase hsv (Database.tracked_dropSet ha hsv.database hc.brings).followed _
  | dropKeys ks => exact followed_onDatabase hsv (Database.tracked_dropKeys ha hsv.database ks).followed _
  | cache c =>
    have hcache := followed_onCache hsv.database hc.puts
    exact ⟨congrArg (fun db => { sv with database := db }) hcache.same, hsv.withDatabase hcache.coherent⟩
  | openSession name => exact ⟨rfl, hsv.withSession name fun _ => rfl⟩
  | dispose name =>
    rw [perform, Step.map_state, Step.map_state]
    have hsame : (sv.uncached).session name = sv.session name := rfl
    rw [Service.dispose, Step.transaction, Step.transaction, hsame]
    cases hdispose : (sv.session name).dispose with
    | error e => exact ⟨rfl, hsv⟩
    | ok ses => exact ⟨rfl, hsv.withSession name (Session.connected_dispose hdispose)⟩
  | setMode name m => exact ⟨rfl, hsv.withSession name (hsv.sessions name)⟩
  | session name c =>
    exact followed_onDatabase hsv (Session.followed_perform ha (hsv.sessions name) hsv.database hc.brings) _

theorem after_followed (ha : Apart types) : ∀ {cs : List Call} {sv : Service}, Coherent types sv →
    (∀ c ∈ cs, c.Allowed types) → after sv.uncached cs = (after sv cs).uncached ∧ Coherent types (after sv cs)
  | [], _, hsv, _ => ⟨rfl, hsv⟩
  | c :: cs, sv, hsv, hcs => by
    obtain ⟨hsame, hnext⟩ := perform_followed ha hsv (hcs c (List.mem_cons_self ..))
    obtain ⟨hrest, hend⟩ := after_followed ha hnext fun c hc => hcs c (List.mem_cons_of_mem _ hc)
    refine ⟨?_, hend⟩
    show after (perform c sv.uncached).2 cs = _
    rw [hsame]
    exact hrest

theorem reads_same (ha : Apart types) (hsv : Coherent types sv) (name : String) {c : Session.Call}
    (hk : ∀ {s}, c.kind.schema = .ok s → types s) (hc : c.ReadsValid) :
    (perform (.session name c) sv.uncached).1 = (perform (.session name c) sv).1 := by
  have htracked := Session.tracked_perform ha (hsv.sessions name) hsv.database hk hc
  have hreply (sv : Service) : (perform (.session name c) sv).1 =
      ((sv.session name).perform c sv.database).1.map Reply.session :=
    Step.map_answer (onDatabase ((sv.session name).perform c)) Reply.session sv
  have hsession : sv.uncached.session name = sv.session name := rfl
  rw [hreply, hreply, hsession]
  have hdatabase : sv.uncached.database = sv.database.uncached := rfl
  rw [hdatabase, htracked.same]

end

/-! ### From the opening on -/

/-- A cache is coherent. After any calls on a database, each of which may have failed, every payload in an entry
    that serves a type is what the table of the type stores under the id, and a read by valid ids answers what
    it answers after the same calls on the database without a cache. -/
theorem cache_coherent (ha : Apart types) {db : Database} (hdb : db.Opened types) {cs : List Call}
    (hcs : ∀ c ∈ cs, c.Allowed types) :
    (∀ p, (after { database := db } cs).database.cache = some p → ∀ k h id payload, p.registered.get? k = some h →
      (p.entry h).payloads.get? id = some payload → ∃ s, types s ∧ s.key = k ∧
        (Store.fetch s id (after { database := db } cs).database.store).1 = .ok (some payload)) ∧
    ∀ name c, c.ReadsValid → (∀ s, c.kind.schema = .ok s → types s) →
      (perform (.session name c) (after { database := db } cs)).1 =
        (perform (.session name c) (after { database := db.uncached } cs)).1 := by
  have hstart : Coherent types { database := db } := ⟨hdb.coherent, fun _ => nofun⟩
  obtain ⟨hsame, hsv⟩ := after_followed ha hstart hcs
  refine ⟨fun p hp k h id payload hk hx => ?_, fun name c hc hbrings => ?_⟩
  · obtain ⟨s, hs, hkey, hid, hpayload⟩ := hsv.database.held hp ((Provider.held?_of hk id).trans hx) not_false
    exact ⟨s, hs, hkey, (Store.fetch_eq_some hsv.database.filed hs hid).mpr hpayload⟩
  · rw [show ({ database := db.uncached } : Service) = uncached { database := db } from rfl, hsame]
    exact (reads_same ha hsv name (fun {s} => hbrings s) hc).symm

/-- A type of notes with identities. -/
def noteKind : Kind where
  ns := ""
  name := "Note"
  idType := .identity
  describe := id
  read? _ := none

/-- A database that gives every type an entry in its cache. -/
def noteDatabase : Database :=
  let config : Config := { cache := { enabled := true, autoEnable := true } }
  { config, cache := Database.cacheOf config.cache }

def note (text : String) : Item := ⟨.ok (.object [("Text", .string text)]), some (.identity 1)⟩

/-- A note is written, read into the cache, written over and read again. -/
def noteCalls : List Call :=
  [.manage .create, .openSession "desk", .session "desk" (.insert noteKind (note "old")),
    .session "desk" (.get noteKind (.int 1) .payload), .session "desk" (.update noteKind (note "new")),
    .session "desk" (.get noteKind (.int 1) .payload)]

def notePayload (text : String) : String := (Json.object [(idMember, .integer 1), ("Text", .string text)]).text

theorem cache_coherent_notes :
    (∃ s, noteKind.schema = .ok s ∧
      (Store.fetch s (.identity 1) (after { database := noteDatabase } noteCalls).database.store).1 =
        .ok (some (notePayload "new"))) ∧
      (perform (.session "desk" (.get noteKind (.int 1) .payload)) (after { database := noteDatabase } noteCalls)).1 =
        (perform (.session "desk" (.get noteKind (.int 1) .payload))
          (after { database := noteDatabase.uncached } noteCalls)).1 := by
  have hopened : noteDatabase.Opened fun s => noteKind.schema = .ok s :=
    ⟨noteDatabase.config, noteDatabase, {}, Store.filed_new, rfl, Or.inl rfl⟩
  have hcalls : ∀ c ∈ noteCalls, c.Allowed fun s => noteKind.schema = .ok s := by
    intro c hc
    simp only [noteCalls, List.mem_cons, List.not_mem_nil, or_false] at hc
    rcases hc with rfl | rfl | rfl | rfl | rfl | rfl <;> refine ⟨fun h => ?_, rfl⟩ <;> first | exact h | exact h.elim
  have hvalid : (RawId.int 1).Valid := by
    intro t id h
    cases t <;> cases h <;> exact ⟨by decide, by decide⟩
  obtain ⟨hheld, hread⟩ := cache_coherent (apart_of_kind noteKind) hopened hcalls
  refine ⟨?_, hread "desk" (.get noteKind (.int 1) .payload) hvalid fun _ h => h⟩
  have hentry : ((after { database := noteDatabase } noteCalls).database.cache.bind
      (·.held? ⟨"Note"⟩ (.identity 1))) = some (notePayload "new") := by decide +kernel
  obtain ⟨p, hp, hpayload⟩ := Option.bind_eq_some_iff.mp hentry
  obtain ⟨h, hk, hx⟩ := Provider.held?_eq_some.mp hpayload
  obtain ⟨s, hs, -, hfetch⟩ := hheld p hp _ h _ _ hk hx
  exact ⟨s, hs, hfetch⟩

end Service

end DocStore
