import DocStore.Proofs.Coherence.Session
import DocStore.Proofs.Schema.Entries
import DocStore.Proofs.Session.Identities
import DocStore.Proofs.Store.Insertion

/-! Batches of identities. All ids that the items of a batch need are taken in one block before the first item is written,
    so the block may meet an id that a later item carries; if it does, the later one of the two items is refused, and if
    it does not, nothing is. -/

namespace DocStore.Session

open Cache (Provider)
open Database (Do)
open Store (TableSet Free)

/-! ### Identities of a block -/

/-- A number as an identity of a type. -/
def identityOf : IdType → Int → DocId
  | .identity, n => .identity n
  | _, n => .bigIdentity n

/-- Where the identities of a type end: the number after the greatest one has to be noted too. -/
def identityLimit : IdType → Int
  | .identity => 2147483648
  | _ => Text.maxInt64

def blockOf (ty : IdType) (first : Int) (count : Nat) : List DocId :=
  (List.range count).map fun i : Nat => identityOf ty (first + i)

section
variable {s : Schema} {ty : IdType} {first : Int} {count : Nat}

theorem mem_blockOf {id : DocId} :
    id ∈ blockOf ty first count ↔ ∃ n, first ≤ n ∧ n < first + count ∧ id = identityOf ty n := by
  rw [blockOf, List.mem_map]
  constructor
  · rintro ⟨i, hi, rfl⟩
    have hlt := List.mem_range.mp hi
    exact ⟨first + i, by omega, by omega, rfl⟩
  · rintro ⟨n, hle, hlt, rfl⟩
    have hnumber : first + ((n - first).toNat : Int) = n := by omega
    exact ⟨(n - first).toNat, List.mem_range.mpr (by omega), by rw [hnumber]⟩

theorem length_blockOf : (blockOf ty first count).length = count := by rw [blockOf, List.length_map, List.length_range]

theorem identityOf_inj {m n : Int} (h : identityOf ty m = identityOf ty n) : m = n := by
  cases ty <;> simpa [identityOf] using h

theorem nodup_blockOf : (blockOf ty first count).Nodup := by
  refine List.Nodup.map_on (fun i _ j _ heq => ?_) List.nodup_range
  have hsum := identityOf_inj heq
  omega

theorem idType_identityOf (h : ty.isIdentity = true) (n : Int) : (identityOf ty n).idType = ty := by
  cases ty with
  | identity | bigIdentity => rfl
  | guid | string => cases h

theorem convert_identity (hs : s.idType.isIdentity = true) {n : Int} (hpositive : 0 < n)
    (hroom : n < identityLimit s.idType) :
    convert s (.int n) = .ok (identityOf s.idType n) := by
  rw [convert, DocId.convert, DocId.convert?]
  cases hty : s.idType with
  | identity =>
    rw [hty] at hroom
    have hfits : Text.isInt32 n = true := by
      change n < 2147483648 at hroom
      simp only [Text.isInt32, Bool.and_eq_true, decide_eq_true_eq]
      omega
    rw [DocId.ofInt, hfits, if_neg (by simp), if_neg (Int.not_le.mpr hpositive)]
    rfl
  | bigIdentity =>
    rw [DocId.ofInt, if_neg (Int.not_le.mpr hpositive)]
    rfl
  | guid | string =>
    rw [hty] at hs
    cases hs

theorem convertAll_ints {ns : List Int} (h : ∀ n ∈ ns, convert s (.int n) = .ok (identityOf s.idType n)) :
    convertAll s (ns.map .int) = .ok (ns.map (identityOf s.idType)) := by
  induction ns with
  | nil => rfl
  | cons n ns ih =>
    obtain ⟨hone, hrest⟩ := List.forall_mem_cons.mp h
    rw [List.map_cons, convertAll, hone, ih hrest]
    rfl

/-- All numbers of a block are identities, if the block begins behind zero and ends before the limit. -/
theorem convertAll_block (hs : s.idType.isIdentity = true) (hpositive : 0 < first)
    (hroom : first + count ≤ identityLimit s.idType) :
    convertAll s (block first count) = .ok (blockOf s.idType first count) := by
  have hblock : block first count = ((List.range count).map fun i : Nat => first + (i : Int)).map .int := by
    rw [block, List.map_map]
    rfl
  rw [hblock, convertAll_ints, List.map_map, blockOf]
  · rfl
  · intro n hn
    obtain ⟨i, hi, rfl⟩ := List.mem_map.mp hn
    have hlt := List.mem_range.mp hi
    exact convert_identity hs (by omega) (by omega)

end

/-! ### Parts of a batch -/

/-- What an item of a batch comes to: the id that it carries, if any, as one of the type, and what it is indexed by. -/
structure Part where
  given : Option DocId
  entries : List IndexEntry

/-- An item reads as a part: the id that it carries can be converted, it can be serialized, and its document can be
    indexed. -/
structure Part.Reads (excluded : List String) (s : Schema) (item : Item) (p : Part) : Prop where
  given : item.id?.map (fun i => convert s (.id i)) = p.given.map .ok
  indexed : ∃ document, item.written excluded = .ok document ∧ Payload.Indexes s document p.entries

/-- The ids that parts carry. -/
def explicitIds (ps : List Part) : List DocId := ps.filterMap (·.given)

def allEntries (ps : List Part) : List IndexEntry := ps.flatMap (·.entries)

/-- The ids of the parts of a batch: those that they carry, and for the others new ones in turn. -/
def numbered : List Part → List DocId → List DocId
  | [], _ => []
  | ⟨some id, _⟩ :: ps, new => id :: numbered ps new
  | ⟨none, _⟩ :: ps, id :: new => id :: numbered ps new
  | ⟨none, _⟩ :: _, [] => []

/-- How many parts carry no id. -/
def missing (ps : List Part) : Nat := (ps.filter (·.given.isNone)).length

section
variable {excluded : List String} {s : Schema} {items : List Item} {ps : List Part} {new : List DocId}

theorem numbered_perm : ∀ {ps : List Part} {new : List DocId}, missing ps = new.length →
    (numbered ps new).Perm (explicitIds ps ++ new)
  | [], [], _ => .nil
  | ⟨some id, _⟩ :: ps, new, h =>
    have hrest : missing ps = new.length := h
    (numbered_perm hrest).cons id
  | ⟨none, _⟩ :: ps, id :: new, h =>
    have hrest : missing ps = new.length := Nat.succ.inj h
    ((numbered_perm hrest).cons id).trans List.perm_middle.symm

theorem missing_of_reads (h : List.Forall₂ (Part.Reads excluded s) items ps) :
    (items.filter fun i => i.id?.isNone).length = missing ps := by
  induction h with
  | nil => rfl
  | @cons item p items ps hitem _ ih =>
    have hnone : item.id?.isNone = p.given.isNone := by
      rw [← Option.isNone_map (f := fun i => convert s (.id i)), hitem.given, Option.isNone_map]
    rw [missing, List.filter_cons, List.filter_cons, hnone]
    split
    · rw [List.length_cons, List.length_cons, ih, missing]
    · exact ih

theorem idType_explicitIds (h : List.Forall₂ (Part.Reads excluded s) items ps) :
    ∀ id ∈ explicitIds ps, id.idType = s.idType := by
  induction h with
  | nil => exact nofun
  | @cons item p items ps hitem _ ih =>
    intro id hid
    rw [explicitIds, List.filterMap_cons] at hid
    cases hp : p.given with
    | none =>
      rw [hp] at hid
      exact ih id hid
    | some id' =>
      rw [hp] at hid
      rcases List.mem_cons.mp hid with rfl | hid
      · have hgiven := hitem.given
        rw [hp] at hgiven
        obtain ⟨i, -, hconvert⟩ := Option.map_eq_some_iff.mp hgiven
        exact idType_convert hconvert
      · exact ih id hid

theorem member_of_reads (h : List.Forall₂ (Part.Reads excluded s) items ps) :
    ∀ e ∈ allEntries ps, ∃ m ∈ s.members, m.path = e.path ∧ m.code = e.code := by
  induction h with
  | nil => exact nofun
  | cons hitem _ ih =>
    obtain ⟨document, -, hindexed⟩ := hitem.indexed
    rw [allEntries, List.flatMap_cons, List.forall_mem_append]
    exact ⟨fun e he => hindexed.member he, ih⟩

end

/-! ### One item after the other -/

/-- Ids that are new to a set, and new to each other. -/
def New (t : TableSet) (ids : List DocId) : Prop := ids.Nodup ∧ ∀ id ∈ ids, t.payload? id = none

/-- A database that holds the set of a schema, in which what is to be indexed clashes with nothing. -/
structure Ready (excluded : List String) (s : Schema) (es : List IndexEntry) (t : TableSet) (db : Database) : Prop where
  config : db.config.excluded = excluded
  memory : ∀ c, db.cache = some c → c.InMemory
  set : db.store.set? s = some t
  of : t.Of s
  free : ∀ g ∈ t.uniques, Free g t.indexRows (es.map (TableSet.rowOf .null))

/-- An item is stored under an id. -/
def StoredAs (excluded : List String) (s : Schema) (t : TableSet) (item : Item) (id : DocId) : Prop :=
  ∃ document payload es, item.written excluded = .ok document ∧ Payload.withId s document id = .ok (payload, es) ∧
    t.payload? id = some payload

/-- What becomes of items under some ids: all of them are stored if the ids are new, and one is refused if they are
    not. -/
inductive Outcome (excluded : List String) (s : Schema) (t : TableSet) (items : List Item) (ids : List DocId) :
    Except Error (List DocId) × Database → Prop
  | inserted {db' : Database} {t' : TableSet} (hnew : New t ids) (hset : db'.store.set? s = some t')
      (hkept : ∀ id, id.idType = s.idType → ∀ p, t.payload? id = some p → t'.payload? id = some p)
      (hstored : List.Forall₂ (StoredAs excluded s t') items ids) : Outcome excluded s t items ids (.ok ids, db')
  | refused {db' : Database} (hnew : ¬New t ids) :
      Outcome excluded s t items ids (.error (.store (.queryFailed t.notNew)), db')

section
variable {ses : Session} (hopen : ses.client.closed = false) {excluded : List String} {s : Schema} {t : TableSet}
  {db : Database} {document : Json} {id : DocId} {payload : String} {es : List IndexEntry}

theorem new_cons (hid : id.idType = s.idType) {ids : List DocId} (hids : ∀ id ∈ ids, id.idType = s.idType)
    (hnew : t.payload? id = none) : New t (id :: ids) ↔ New (t.written id payload es) ids := by
  have hpayload : ∀ id' ∈ ids, (t.written id payload es).payload? id' = none ↔ id' ≠ id ∧ t.payload? id' = none := by
    intro id' hin
    rw [Store.payload?_written hid hnew (hids id' hin)]
    split
    · rename_i heq
      exact iff_of_false nofun fun h => h.1 heq
    · rename_i hne
      exact (and_iff_right hne).symm
  rw [New, New, List.nodup_cons, List.forall_mem_cons]
  constructor
  · rintro ⟨⟨hnotin, hnodup⟩, -, hrest⟩
    exact ⟨hnodup, fun id' hin => (hpayload id' hin).mpr ⟨fun heq => hnotin (heq ▸ hin), hrest id' hin⟩⟩
  · rintro ⟨hnodup, hrest⟩
    have hparts := fun id' hin => (hpayload id' hin).mp (hrest id' hin)
    exact ⟨⟨fun hin => (hparts id hin).1 rfl, hnodup⟩, hnew, fun id' hin => (hparts id' hin).2⟩

theorem writeDocument_eq (hdoc : Payload.withId s document id = .ok (payload, es)) :
    ses.writeDocument s document id db = (ses.onStore (Store.insert s id payload es) >>= fun _ => invalidate s [id]) db := by
  have hmake : Step.ofExcept ((Payload.withId s document id).mapError Error.validation) db = (.ok (payload, es), db) := by
    rw [hdoc]
    rfl
  rw [writeDocument, Step.bind_ok hmake]

include hopen

theorem writeDocument_error (hdoc : Payload.withId s document id = .ok (payload, es)) {e : Error} {st : Store}
    (hinsert : Store.insert s id payload es db.store = (.error e, st)) :
    ses.writeDocument s document id db = (.error e, { db with store := st }) := by
  have hwrite : ses.onStore (Store.insert s id payload es) db = (.error e, { db with store := st }) := by
    rw [onStore_apply hopen, hinsert]
  rw [writeDocument_eq hdoc]
  exact Step.bind_error hwrite _

theorem writeDocument_ok (hdoc : Payload.withId s document id = .ok (payload, es)) {st : Store}
    (hinsert : Store.insert s id payload es db.store = (.ok (), st)) (hmemory : ∀ c, db.cache = some c → c.InMemory) :
    ∃ cache : Option Provider, (∀ c, cache = some c → c.InMemory) ∧
      ses.writeDocument s document id db = (.ok (), { db with store := st, cache }) := by
  have hwrite : ses.onStore (Store.insert s id payload es) db = (.ok (), { db with store := st }) := by
    rw [onStore_apply hopen, hinsert]
  have hrun : ses.writeDocument s document id db = invalidate s [id] { db with store := st } := by
    rw [writeDocument_eq hdoc]
    exact Step.bind_ok hwrite _
  cases hcache : db.cache with
  | none =>
    refine ⟨none, nofun, ?_⟩
    rw [hrun, invalidate, Database.onCache, hcache]
  | some p =>
    obtain ⟨q, hremove, hshrunk, -⟩ := Provider.removeMany_held (hmemory p hcache) s.key [id]
    refine ⟨some q, fun c hc => Option.some.inj hc ▸ hshrunk.memory, ?_⟩
    rw [hrun, invalidate, Database.onCache, hcache]
    dsimp only
    rw [hremove]
    rfl

/-- An item that is inserted before the others decides what becomes of them: it is refused, or they go on beside it. -/
theorem Outcome.cons {item : Item} {rest : List IndexEntry} (hready : Ready excluded s (es ++ rest) t db)
    (hid : id.idType = s.idType) {document : Json} (hdocument : item.written excluded = .ok document) {payload : String}
    (hdoc : Payload.withId s document id = .ok (payload, es)) {items : List Item}
    {ids : List DocId} (hids : ∀ id ∈ ids, id.idType = s.idType) {m : Do (List DocId)}
    (hrest : ∀ {db' t'}, Ready excluded s rest t' db' → Outcome excluded s t' items ids (m db')) :
    Outcome excluded s t (item :: items) (id :: ids)
      ((ses.insertItem s item id >>= fun _ => m >>= fun ids => pure (id :: ids)) db) := by
  have hitem : ses.insertItem s item id db = _ := insertItem_eq (hready.config.symm ▸ hdocument) id
  cases hthere : t.payload? id with
  | some p =>
    have hrefused := writeDocument_error hopen hdoc
      (Store.insert_taken hready.of hid hready.set (by rw [hthere]; rfl))
    rw [Step.bind_error (hitem.trans hrefused)]
    refine .refused fun hnew => ?_
    rw [hnew.2 id (List.mem_cons_self ..)] at hthere
    cases hthere
  | none =>
    have hfree := fun g hg => Store.free_append.mp (List.map_append ▸ hready.free g hg)
    obtain ⟨cache, hmemory, hwritten⟩ := writeDocument_ok hopen hdoc
      (Store.insert_new hready.of hid hready.set hthere fun g hg => (hfree g hg).1) hready.memory
    have hset' : (db.store.putSet (t.written id payload es)).set? s = some (t.written id payload es) :=
      Store.set?_putSet_self hready.of.stem
    have hnext : Ready excluded s rest (t.written id payload es)
        { db with store := db.store.putSet (t.written id payload es), cache } :=
      ⟨hready.config, hmemory, hset', Store.written_of hready.of hid hthere,
        fun g hg => (Store.free_beside_rowOf .null _).mp (hfree g hg).2⟩
    have hout := hrest hnext
    rw [Step.bind_ok (hitem.trans hwritten)]
    cases hm : m { db with store := db.store.putSet (t.written id payload es), cache } with
    | mk r db₂ =>
      rw [hm] at hout
      cases hout with
      | @inserted _ t₂ hnew hset hkept hstored =>
        rw [Step.bind_ok hm]
        refine .inserted ((new_cons hid hids hthere).mpr hnew) hset (fun id' hid' p hp => ?_) (.cons ?_ hstored)
        · refine hkept id' hid' p ?_
          rw [Store.payload?_written hid hthere hid', if_neg fun heq => ?_, hp]
          rw [heq, hthere] at hp
          cases hp
        · refine ⟨document, payload, es, hdocument, hdoc, hkept id hid payload ?_⟩
          rw [Store.payload?_written hid hthere hid, if_pos rfl]
      | refused hnew =>
        rw [Step.bind_error hm]
        exact .refused fun hall => hnew ((new_cons hid hids hthere).mp hall)

/-- What becomes of the items of a batch once new ids were taken for it. -/
theorem insertEach_outcome {items : List Item} {ps : List Part} (h : List.Forall₂ (Part.Reads excluded s) items ps)
    (hs : s.Builds) : ∀ {new : List DocId} {t : TableSet} {db : Database}, missing ps = new.length →
    (∀ id ∈ new, id.idType = s.idType) → Ready excluded s (allEntries ps) t db →
    Outcome excluded s t items (numbered ps new) (ses.insertEach s items new db) := by
  induction h with
  | nil =>
    intro new t db _ _ hready
    exact .inserted ⟨List.nodup_nil, nofun⟩ hready.set (fun _ _ _ hp => hp) .nil
  | @cons item p items ps hitem hitems ih =>
    intro new t db hmissing hnew hready
    obtain ⟨serialized, i?⟩ := item
    obtain ⟨given, es⟩ := p
    have hgiven := hitem.given
    obtain ⟨document, hdocument, hindexed⟩ := hitem.indexed
    have hnumbered {new : List DocId} (hmissing : missing ps = new.length) (hnew : ∀ id ∈ new, id.idType = s.idType) :
        ∀ id ∈ numbered ps new, id.idType = s.idType := by
      intro id hid
      rcases List.mem_append.mp ((numbered_perm hmissing).mem_iff.mp hid) with hid | hid
      · exact idType_explicitIds hitems id hid
      · exact hnew id hid
    cases given with
    | some id =>
      obtain ⟨i, rfl, hconvert⟩ := Option.map_eq_some_iff.mp hgiven
      obtain ⟨payload, hdoc⟩ := hindexed.withId hs id
      have hrun : ses.insertEach s (⟨serialized, some i⟩ :: items) new db =
          (ses.insertItem s ⟨serialized, some i⟩ id >>= fun _ =>
            ses.insertEach s items new >>= fun ids => pure (id :: ids)) db := by
        show (Step.ofExcept (convert s (.id i)) >>= _) db = _
        rw [hconvert]
        rfl
      rw [hrun]
      exact Outcome.cons hopen hready (idType_convert hconvert) hdocument hdoc (hnumbered hmissing hnew) fun hready =>
        ih hmissing hnew hready
    | none =>
      obtain rfl : i? = none := Option.map_eq_none_iff.mp hgiven
      cases new with
      | nil => cases hmissing
      | cons id new =>
        have hmissing : missing ps = new.length := Nat.succ.inj hmissing
        obtain ⟨hid, hnew⟩ := List.forall_mem_cons.mp hnew
        obtain ⟨payload, hdoc⟩ := hindexed.withId hs id
        exact Outcome.cons hopen hready hid hdocument hdoc (hnumbered hmissing hnew) fun hready => ih hmissing hnew hready

/-! ### Whole batches -/

/-- The block that is reserved is what the items without ids are given. -/
theorem assignIds_block (hs : s.idType.isIdentity = true) {count : Nat} (hblock : count ≤ greatestBlock) {first : Int}
    (hfirst : ses.client.Reserves s count first db.store) (hroom : 0 < count → first + count ≤ identityLimit s.idType) :
    ∃ st : Store, st.sets = db.store.sets ∧
      ses.assignIds s count db = (.ok (blockOf s.idType first count), { db with store := st }) := by
  rcases Nat.eq_zero_or_pos count with rfl | hcount
  · exact ⟨db.store, rfl, rfl⟩
  · have hreserve := hfirst.eq_ok
    obtain ⟨hpositive, -⟩ := Store.reserve_block hreserve
    have hclient : ses.client.reserve s count db.store = Store.reserve s count db.store := by
      rw [Store.Client.reserve, Store.checkIdentities, if_pos hs]
      exact congrFun (Store.Client.guarded_open hopen (Store.reserve s count)) db.store
    have hrun : Database.onStore (ses.client.reserve s count) db =
        (.ok first, { db with store := (ses.client.perform (.reserve s count) db.store).2 }) := by
      rw [Database.onStore_apply, hclient, hreserve]
    refine ⟨_, Store.reserve_sets hreserve, ?_⟩
    rw [assignIds_eq hs hcount, assignBlock, if_neg (Nat.not_lt.mpr hblock), Step.bind_ok hrun,
      convertAll_block hs hpositive (hroom hcount)]
    rfl

/-- What becomes of a batch: its items that carry no ids are given those of a block. -/
theorem insertMany_outcome (hs : s.Builds) (hidentity : s.idType.isIdentity = true) {k : Kind} {db₀ : Database}
    (hprepared : ses.prepare k db₀ = (.ok s, db)) {items : List Item} (hitems : items ≠ []) {ps : List Part}
    (hreads : List.Forall₂ (Part.Reads excluded s) items ps) (hready : Ready excluded s (allEntries ps) t db)
    (hblock : missing ps ≤ greatestBlock) {first : Int} (hfirst : ses.client.Reserves s (missing ps) first db.store)
    (hroom : 0 < missing ps → first + missing ps ≤ identityLimit s.idType) :
    Outcome excluded s t items (numbered ps (blockOf s.idType first (missing ps))) (ses.insertMany k items db₀) := by
  obtain ⟨st, hsets, hassigned⟩ := assignIds_block hopen hidentity hblock hfirst hroom
  have hready' : Ready excluded s (allEntries ps) t { db with store := st } :=
    ⟨hready.config, hready.memory, (Store.set?_of_sets hsets s).trans hready.set, hready.of, hready.free⟩
  have hnew : ∀ id ∈ blockOf s.idType first (missing ps), id.idType = s.idType := by
    intro id hid
    obtain ⟨n, -, -, rfl⟩ := mem_blockOf.mp hid
    exact idType_identityOf hidentity n
  have hrun : ses.insertMany k items db₀ =
      ses.insertEach s items (blockOf s.idType first (missing ps)) { db with store := st } := by
    rw [insertMany, if_neg (by simpa using hitems), Step.bind_ok hprepared, insertItems, missing_of_reads hreads,
      Step.bind_ok hassigned]
  rw [hrun]
  exact insertEach_outcome hopen hreads hs length_blockOf.symm hnew hready'

omit hopen in
/-- A batch that more ids are missing in than can be reserved at once is refused before anything is written. -/
theorem insertMany_tooLarge (hidentity : s.idType.isIdentity = true) {k : Kind} {db₀ : Database}
    (hprepared : ses.prepare k db₀ = (.ok s, db)) {items : List Item} (hitems : items ≠ []) {ps : List Part}
    (hreads : List.Forall₂ (Part.Reads excluded s) items ps) (hlarge : greatestBlock < missing ps) :
    ses.insertMany k items db₀ = (.error (blockTooLarge (missing ps)), db) := by
  have hassigned : ses.assignIds s (missing ps) db = (.error (blockTooLarge (missing ps)), db) := by
    rw [assignIds_eq hidentity (Nat.zero_lt_of_lt hlarge), assignBlock, if_pos hlarge]
    rfl
  rw [insertMany, if_neg (by simpa using hitems), Step.bind_ok hprepared, insertItems, missing_of_reads hreads]
  exact Step.bind_error hassigned _

end

/-! ### Batches that nothing is wrong with -/

/-- A batch that nothing is wrong with: its items read as parts, the ids that they carry are new to the set and to each
    other, and at no member that the set keeps unique a value of theirs clashes with another one or with what is there. -/
structure Insertable (excluded : List String) (s : Schema) (t : TableSet) (items : List Item) (ps : List Part) : Prop where
  nonempty : items ≠ []
  reads : List.Forall₂ (Part.Reads excluded s) items ps
  explicit : New t (explicitIds ps)
  clear : ∀ m ∈ s.members, (m.path, m.code) ∈ t.uniques → ¬t.Clashes .null m (allEntries ps)

section
variable {s : Schema} {t : TableSet} {ps : List Part} {new : List DocId}

/-- Ids that items carry and ids that are new are new together if they have none in common. -/
theorem new_numbered (hmissing : missing ps = new.length) (hexplicit : New t (explicitIds ps)) (hnew : New t new) :
    New t (numbered ps new) ↔ ∀ id ∈ explicitIds ps, id ∉ new := by
  have hperm := numbered_perm hmissing
  have hall : ∀ id ∈ numbered ps new, t.payload? id = none := by
    intro id hid
    exact (List.mem_append.mp (hperm.mem_iff.mp hid)).elim (hexplicit.2 id) (hnew.2 id)
  rw [New, hperm.nodup_iff, List.nodup_append]
  constructor
  · rintro ⟨⟨-, -, hdisjoint⟩, -⟩ id hid hin
    exact hdisjoint id hid id hin rfl
  · intro hdisjoint
    exact ⟨⟨hexplicit.1, hnew.1, fun id hid id' hid' heq => hdisjoint id hid (heq ▸ hid')⟩, hall⟩

/-- A block lies behind all that is stored. -/
theorem new_blockOf {c : Store.Client} {count : Nat} {first : Int} {st : Store}
    (hset : st.set? s = some t) (ht : t.Of s) (hfirst : c.Reserves s count first st) :
    New t (blockOf s.idType first count) := by
  obtain ⟨-, -, -, t', hset', hbehind⟩ := Store.reserve_block hfirst.eq_ok
  obtain rfl := Option.some.inj (hset.symm.trans hset')
  refine ⟨nodup_blockOf, fun id hid => ?_⟩
  obtain ⟨n, hle, -, rfl⟩ := mem_blockOf.mp hid
  cases hpayload : t.payload? (identityOf s.idType n) with
  | none => rfl
  | some p =>
    obtain ⟨r, hr, hrow, -⟩ := ht.payload?_eq_some.mp hpayload
    obtain ⟨m, hm, hlt⟩ := hbehind r hr
    have hdatum : (identityOf s.idType n).datum = .integer n := by cases s.idType <;> rfl
    rw [hm, hdatum] at hrow
    cases hrow
    omega

end

end DocStore.Session
