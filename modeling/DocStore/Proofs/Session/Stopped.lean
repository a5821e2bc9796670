import DocStore.Proofs.Session.Batch
import DocStore.Proofs.Session.Inserted
import DocStore.Proofs.Session.Selected
import DocStore.Proofs.Session.Serialized

/-! Batches that fail. All texts of a batch are read, and the ids in them converted, before anything is written, so a text
    that is unfit leaves everything as it was. Whatever a batch fails by later on, it stops between two of its items:
    those before are stored with their index rows, behind what was there, and nothing else was written. -/

namespace DocStore

namespace Store

/-! ### Structures behind others -/

/-- A structure as it is written to a set: its id, its payload, and what it is indexed by. -/
structure Written where
  id : DocId
  payload : String
  entries : List IndexEntry

namespace TableSet

/-- The set with structures, each with its index rows, behind those that were there. -/
def plus (t : TableSet) (ws : List Written) : TableSet :=
  { t with
    rows := t.rows ++ ws.map fun w => ⟨t.idDatum w.id, w.payload⟩
    indexRows := t.indexRows ++ ws.flatMap fun w => w.entries.map (rowOf (t.idDatum w.id)) }

theorem plus_plus (t : TableSet) (ws ws' : List Written) : (t.plus ws).plus ws' = t.plus (ws ++ ws') := by
  rw [plus, plus, plus, List.map_append, List.flatMap_append, ← List.append_assoc, ← List.append_assoc]
  rfl

end TableSet

/-- From one store to the next structures were written behind those that were in the set of a schema, and no other row
    of any set came or went or changed. -/
inductive Appended (s : Schema) (st st' : Store) : List Written → Prop
  | nothing (h : st'.sets = st.sets) : Appended s st st' []
  | behind {t : TableSet} {ws : List Written} (hset : st.set? s = some t) (h : st'.sets = (st.putSet (t.plus ws)).sets) :
      Appended s st st' ws

section
variable {s : Schema} {st st₁ st' : Store} {t : TableSet} {ws : List Written}

theorem insert_eq_plus {w : Written} {u : Unit} (h : insert s w.id w.payload w.entries st = (.ok u, st')) :
    ∃ t, st.set? s = some t ∧ st' = st.putSet (t.plus [w]) := by
  obtain ⟨t, t₁, t₂, hset, hrow, hentries, rfl⟩ := insert_eq_ok h
  obtain ⟨rfl, -⟩ := TableSet.insertRow_eq_ok hrow
  refine ⟨t, hset, ?_⟩
  rw [TableSet.insertEntries_eq_ok hentries, TableSet.plus, List.flatMap_singleton, List.map_singleton]

namespace Appended

theorem of_sets (hsets : st₁.sets = st.sets) (h : Appended s st₁ st' ws) : Appended s st st' ws := by
  cases h with
  | nothing h => exact .nothing (h.trans hsets)
  | behind hset h =>
    rw [putSet, hsets] at h
    exact .behind ((set?_of_sets hsets s).symm.trans hset) h

/-- After one structure others are written. -/
theorem cons (hn : st.Named) {w : Written} (hset : st.set? s = some t)
    (h : Appended s (st.putSet (t.plus [w])) st' ws) : Appended s st st' (w :: ws) := by
  cases h with
  | nothing h => exact .behind hset h
  | @behind t' _ hset' h =>
    have hstem : folded t.stem = folded s.stem := hn.stem hset
    obtain rfl := Option.some.inj (hset'.symm.trans (set?_putSet_self (t := t.plus [w]) hstem))
    have hsame : (t.plus ([w] ++ ws)).stem = (t.plus [w]).stem := rfl
    rw [TableSet.plus_plus, putSet_putSet hsame] at h
    exact .behind hset h

end Appended

end

end Store

/-- A type is registered with a schema, and its set is known to have the shape of it. -/
structure Database.Current (db : Database) (k : Kind) (s : Schema) : Prop where
  registered : db.registry.get? k.key = some s
  shaped : db.shapes.isCurrent s = true

namespace Session

open Database (Do)
open Store (Written Appended)

/-! ### What is left of a batch -/

/-- What is written for an item: its document without the excluded members, under the id that it carries or else under
    another one of its type. -/
structure WrittenFor (excluded : List String) (s : Schema) (item : Item) (w : Written) : Prop where
  idType : w.id.idType = s.idType
  own : ∀ id, item.id? = some id → convert s (.id id) = .ok w.id
  made : ∃ document, item.written excluded = .ok document ∧
    Payload.withId s document w.id = .ok (w.payload, w.entries)

/-- A batch that stopped between two of its parts, or before the first one: a structure was written for each of those
    before, and nothing else was written. -/
def Stopped {α : Type} (For : α → Written → Prop) (s : Schema) (batch : List α) (st st' : Store) : Prop :=
  ∃ before rest ws, batch = before ++ rest ∧ (before ≠ [] → rest ≠ []) ∧ List.Forall₂ For before ws ∧
    Appended s st st' ws

namespace Stopped

variable {α β : Type} {For : α → Written → Prop} {s : Schema} {batch : List α} {st st₁ st' : Store}

theorem at_once (h : st'.sets = st.sets) : Stopped For s batch st st' :=
  ⟨[], batch, [], rfl, fun hne => absurd rfl hne, .nil, .nothing h⟩

theorem mono {For' : α → Written → Prop} (h : Stopped For s batch st st') (hfor : ∀ a w, For a w → For' a w) :
    Stopped For' s batch st st' := by
  obtain ⟨before, rest, ws, hbatch, hproper, hws, happended⟩ := h
  exact ⟨before, rest, ws, hbatch, hproper, hws.imp hfor, happended⟩

theorem of_sets (hsets : st₁.sets = st.sets) (h : Stopped For s batch st₁ st') : Stopped For s batch st st' := by
  obtain ⟨before, rest, ws, hbatch, hproper, hws, happended⟩ := h
  exact ⟨before, rest, ws, hbatch, hproper, hws, happended.of_sets hsets⟩

/-- A batch that begins with a part for which a structure was written stopped where the rest of it did. -/
theorem cons (hn : st.Named) {t : Store.TableSet} (hset : st.set? s = some t) {a : α} {w : Written} (hw : For a w)
    (hne : batch ≠ []) (h : Stopped For s batch (st.putSet (t.plus [w])) st') : Stopped For s (a :: batch) st st' := by
  obtain ⟨before, rest, ws, rfl, hproper, hws, happended⟩ := h
  refine ⟨a :: before, rest, w :: ws, rfl, fun _ hrest => ?_, .cons hw hws, happended.cons hn hset⟩
  rw [hrest, List.append_nil] at hne
  exact hproper hne hrest

theorem forall₂_comp {R : β → α → Prop} {bs : List β} {ws : List Written} (hread : List.Forall₂ R bs batch)
    (hws : List.Forall₂ For batch ws) : List.Forall₂ (fun b w => ∃ a, R b a ∧ For a w) bs ws := by
  induction hread generalizing ws with
  | nil =>
    cases hws
    exact .nil
  | cons hone _ ih =>
    cases hws with
    | cons hw hws => exact .cons ⟨_, hone, hw⟩ (ih hws)

/-- A batch is stopped where that is which was read from it. -/
theorem of_read {R : β → α → Prop} {bs : List β} (hread : List.Forall₂ R bs batch) (h : Stopped For s batch st st') :
    Stopped (fun b w => ∃ a, R b a ∧ For a w) s bs st st' := by
  obtain ⟨before, rest, ws, rfl, hproper, hws, happended⟩ := h
  have hbefore := List.forall₂_take_append bs before rest hread
  have hrest := List.forall₂_drop_append bs before rest hread
  refine ⟨bs.take before.length, bs.drop before.length, ws, (List.take_append_drop ..).symm, fun hne hdropped => ?_,
    forall₂_comp hbefore hws, happended⟩
  rw [hdropped, List.forall₂_nil_left_iff] at hrest
  refine hproper (fun hnil => hne ?_) hrest
  rw [hnil] at hbefore ⊢
  rfl

end Stopped

/-! ### Items one after the other -/

section
variable {ses : Session} {s : Schema} {k : Kind} {db db' : Database} {e : Error}

/-- A document is written as a whole, or nothing is done. -/
theorem writeDocument_cases (hmemory : ∀ c, db.cache = some c → c.InMemory) (document : Json) (id : DocId) :
    (∃ e, ses.writeDocument s document id db = (.error e, db)) ∨
      ∃ payload es t cache, Payload.withId s document id = .ok (payload, es) ∧ db.store.set? s = some t ∧
        (∀ c, cache = some c → c.InMemory) ∧ ses.writeDocument s document id db =
          (.ok (), { db with store := db.store.putSet (t.plus [⟨id, payload, es⟩]), cache }) := by
  cases hdoc : Payload.withId s document id with
  | error e =>
    refine .inl ⟨.validation e, ?_⟩
    rw [writeDocument, hdoc]
    rfl
  | ok made =>
    obtain ⟨payload, es⟩ := made
    cases hclient : ses.client.closed with
    | true =>
      have hclosed : ses.onStore (Store.insert s id payload es) db = (.error (.store .connectionClosed), db) := by
        rw [onStore, Store.Client.guarded_closed hclient]
        rfl
      exact .inl ⟨_, (writeDocument_eq hdoc).trans (Step.bind_error hclosed _)⟩
    | false =>
      cases hinsert : Store.insert s id payload es db.store with
      | mk r st =>
        cases r with
        | error e =>
          have hwhole : Step.Whole (Store.insert s id payload es) := .transaction _
          refine .inl ⟨e, ?_⟩
          rw [writeDocument_error hclient hdoc hinsert, hwhole hinsert]
        | ok u =>
          obtain ⟨cache, hcache, hrun⟩ := writeDocument_ok hclient hdoc hinsert hmemory
          obtain ⟨t, hset, rfl⟩ := Store.insert_eq_plus (w := ⟨id, payload, es⟩) hinsert
          exact .inr ⟨payload, es, t, cache, rfl, hset, hcache, hrun⟩

/-- An item is written and others follow: if it comes to a failure, it was here or behind. -/
theorem stopped_insertItem (hn : db.store.Named) (hmemory : ∀ c, db.cache = some c → c.InMemory) {item : Item}
    {items : List Item} {id : DocId} (hid : id.idType = s.idType)
    (hown : ∀ i, item.id? = some i → convert s (.id i) = .ok id) {m : Do (List DocId)}
    (hrest : ∀ {db₁}, m db₁ = (.error e, db') → db₁.store.Named → (∀ c, db₁.cache = some c → c.InMemory) →
      db₁.config = db.config → items ≠ [] ∧ Stopped (WrittenFor db.config.excluded s) s items db₁.store db'.store)
    (h : (ses.insertItem s item id >>= fun _ => m >>= fun ids => pure (id :: ids)) db = (.error e, db')) :
    Stopped (WrittenFor db.config.excluded s) s (item :: items) db.store db'.store := by
  cases hdocument : item.written db.config.excluded with
  | error e' =>
    rw [Step.bind_error (insertItem_unserialized hdocument id)] at h
    cases h
    exact .at_once rfl
  | ok document =>
    have hitem : ses.insertItem s item id db = _ := insertItem_eq hdocument id
    obtain ⟨e', hfailed⟩ | ⟨payload, es, t, cache, hdoc, hset, hcache, hwritten⟩ :=
      ses.writeDocument_cases (s := s) hmemory document id
    · rw [Step.bind_error (hitem.trans hfailed)] at h
      cases h
      exact .at_once rfl
    · rw [Step.bind_ok (hitem.trans hwritten)] at h
      obtain hfailed | ⟨ids, db₂, -, hdone⟩ := Step.bind_eq_error.mp h
      · have hfor : WrittenFor db.config.excluded s item ⟨id, payload, es⟩ := ⟨hid, hown, document, hdocument, hdoc⟩
        obtain ⟨hne, hstopped⟩ := hrest hfailed (hn.putSet _) hcache rfl
        exact hstopped.cons hn hset hfor hne
      · cases hdone

/-- Items that are inserted one after the other stop before the one that fails. -/
theorem insertEach_stopped : ∀ {items : List Item} {assigned : List DocId} {db : Database}, db.store.Named →
    (∀ c, db.cache = some c → c.InMemory) → (∀ id ∈ assigned, id.idType = s.idType) →
    ses.insertEach s items assigned db = (.error e, db') →
    items ≠ [] ∧ Stopped (WrittenFor db.config.excluded s) s items db.store db'.store
  | [], _, _, _, _, _, h => by cases h
  | ⟨_, some i⟩ :: items, assigned, db, hn, hmemory, hassigned, h => by
    refine ⟨List.cons_ne_nil _ _, ?_⟩
    obtain hunread | ⟨id, db₁, hread, h⟩ := Step.bind_eq_error.mp h
    · obtain ⟨-, rfl⟩ := Prod.mk.inj hunread
      exact .at_once rfl
    · obtain ⟨hconvert, rfl⟩ := Prod.mk.inj hread
      exact stopped_insertItem hn hmemory (idType_convert hconvert) (fun _ hi => Option.some.inj hi ▸ hconvert)
        (fun hm hn hmemory hconfig => hconfig ▸ insertEach_stopped hn hmemory hassigned hm) h
  | ⟨_, none⟩ :: items, id :: assigned, db, hn, hmemory, hassigned, h => by
    obtain ⟨hid, hassigned⟩ := List.forall_mem_cons.mp hassigned
    exact ⟨List.cons_ne_nil _ _, stopped_insertItem hn hmemory hid nofun
      (fun hm hn hmemory hconfig => hconfig ▸ insertEach_stopped hn hmemory hassigned hm) h⟩
  | ⟨_, none⟩ :: items, [], db, _, _, _, h => by
    cases h
    exact ⟨List.cons_ne_nil _ _, .at_once rfl⟩

/-! ### Texts -/

/-- What makes a text unfit for any batch: it is no JSON text; it is that of no object; the id in it is none of the type;
    or there is none in it although ids of the type are not given out. An id that is left out with the excluded members
    is not in it, and neither is one that is null. -/
inductive Unfit (excluded : List String) (s : Schema) (text : String) : Prop
  | unread {e : SerializationError} (hread : Payload.read text = .error e)
  | noObject {v : Json} (hread : Payload.read text = .ok v) (hobject : v.isObject = false)
  | wrongId {v id : Json} {e : ValidationError} (hread : Payload.read text = .ok v)
      (hid : (Payload.strip excluded v).member? idMember = some id) (hnull : id ≠ .null)
      (hconvert : DocId.convert (.json id) s.idType = .error e)
  | noId {v : Json} (hread : Payload.read text = .ok v) (hstring : s.idType = .string)
      (hid : (Payload.strip excluded v).member? idMember = none ∨
        (Payload.strip excluded v).member? idMember = some .null)

variable {excluded : List String} {text : String} {texts : List String} {items : List Item} {ps : List Parsed}

theorem parsedOf_of_read {v : Json} (hread : Payload.read text = .ok v) : parsedOf excluded s text =
    if v.isObject then (idOf s (Payload.strip excluded v)).map fun id? => ⟨Payload.strip excluded v, id?⟩
    else .error (.validation (Payload.notObject s)) := by
  rw [parsedOf, Payload.parse, hread]
  show (if !(Payload.strip excluded v).isObject then _ else _) = _
  rw [Payload.isObject_strip]
  cases v.isObject with
  | false => rfl
  | true =>
    show (idOf s (Payload.strip excluded v) >>= _) = _
    cases idOf s (Payload.strip excluded v) <;> rfl

/-- Such a text cannot be read, or what it is read as has no id, which it needs. -/
theorem Unfit.parsedOf (h : Unfit excluded s text) : (∃ e, parsedOf excluded s text = .error e) ∨
    s.idType = .string ∧ ∀ p, Session.parsedOf excluded s text = .ok p → p.id? = none := by
  cases h with
  | @unread e hread =>
    refine .inl ⟨.serialization e, ?_⟩
    rw [Session.parsedOf, Payload.parse, hread]
    rfl
  | noObject hread hobject =>
    refine .inl ⟨.validation (Payload.notObject s), ?_⟩
    rw [parsedOf_of_read hread, hobject]
    rfl
  | @wrongId v id e hread hid hnull hconvert =>
    have hwrong : idOf s (Payload.strip excluded v) = .error (.validation e) := by
      have hgiven : convert s (.json id) = .error (.validation e) := by rw [convert, hconvert]; rfl
      rw [idOf, hid]
      cases id with
      | null => exact absurd rfl hnull
      | _ => exact congrArg (Except.map some) hgiven
    refine .inl ?_
    rw [parsedOf_of_read hread, hwrong]
    split <;> exact ⟨_, rfl⟩
  | @noId v hread hstring hid =>
    have hnone : idOf s (Payload.strip excluded v) = .ok none := by
      rcases hid with hid | hid <;> rw [idOf, hid]
    refine .inr ⟨hstring, fun p hp => ?_⟩
    rw [parsedOf_of_read hread, hnone] at hp
    split at hp <;> cases hp
    rfl

theorem exists_parsed (hread : parsedAll excluded s texts = .ok ps) (hin : text ∈ texts) :
    ∃ p ∈ ps, parsedOf excluded s text = .ok p := by
  have hps := forall₂_of_parsedAll hread
  obtain ⟨n, hn, rfl⟩ := List.getElem_of_mem hin
  have hn' : n < ps.length := hps.length_eq ▸ hn
  exact ⟨ps[n], List.getElem_mem hn', hps.get hn hn'⟩

/-! ### Whole batches -/

theorem prepare_current_cases (hcurrent : db.Current k s) (ses : Session) :
    (∃ e, ses.prepare k db = (.error e, db)) ∨ ses.prepare k db = (.ok s, db) := by
  cases hdisposed : ses.disposed with
  | true => exact .inl ⟨.session .alreadyDisposed, by rw [prepare, hdisposed]; rfl⟩
  | false => exact .inr (prepare_known hcurrent.registered hcurrent.shaped hdisposed)

theorem insertManyJson_refused (hsome : texts ≠ []) (hrefused : ses.prepare k db = (.error e, db')) :
    ses.insertManyJson k texts db = (.error e, db') := by
  rw [insertManyJson, List.isEmpty_eq_false_iff.mpr hsome, if_neg Bool.false_ne_true]
  exact Step.bind_error hrefused _

theorem insertManyJson_prepared (hsome : texts ≠ []) (hprepared : ses.prepare k db = (.ok s, db')) :
    ses.insertManyJson k texts db = (Step.ofExcept (parsedAll db'.config.excluded s texts) >>= fun ps =>
      ses.assignIds s (ps.filter fun p => p.id?.isNone).length >>= fun assigned => ses.writeEach s ps assigned) db' := by
  rw [insertManyJson, List.isEmpty_eq_false_iff.mpr hsome, if_neg Bool.false_ne_true, Step.bind_ok hprepared]
  rfl

/-- A batch in which a text is unfit is not begun. -/
theorem insertManyJson_unfit (hcurrent : db.Current k s) (hin : text ∈ texts)
    (hunfit : Unfit db.config.excluded s text) : ∃ e, ses.insertManyJson k texts db = (.error e, db) := by
  have hsome := List.ne_nil_of_mem hin
  obtain ⟨e, hrefused⟩ | hprepared := ses.prepare_current_cases hcurrent
  · exact ⟨e, insertManyJson_refused hsome hrefused⟩
  · rw [insertManyJson_prepared hsome hprepared]
    cases hread : parsedAll db.config.excluded s texts with
    | error e => exact ⟨e, rfl⟩
    | ok ps =>
      obtain ⟨p, hp, hone⟩ := exists_parsed hread hin
      obtain ⟨e, herror⟩ | ⟨hstring, hnone⟩ := hunfit.parsedOf
      · rw [herror] at hone
        cases hone
      · -- all texts are read, but no id is given out to the one that needs it
        have hmissing : p ∈ ps.filter fun p => p.id?.isNone :=
          List.mem_filter.mpr ⟨hp, by rw [hnone p hone]; rfl⟩
        refine ⟨missingId, ?_⟩
        show (ses.assignIds s _ >>= _ : Do _) db = _
        rw [assignIds, if_neg (Nat.ne_of_gt (List.length_pos_of_mem hmissing)), hstring]
        rfl

/-- What texts were read as is written for the items that serialize to it. -/
theorem writtenAs_of_read (hread : parsedAll excluded s texts = .ok ps) :
    List.Forall₂ (WrittenAs excluded) (ps.map Parsed.item) ps := by
  rw [List.forall₂_map_left_iff, List.forall₂_same]
  exact fun p hp => ⟨(wasRead_of_parsedAll hread p hp).written, rfl⟩

/-- What is kept while new ids are taken: no row comes or goes, and the cache and the configuration stay as they are. -/
theorem assignIds_beside {count : Nat} {r : Except Error (List DocId)} (h : ses.assignIds s count db = (r, db')) :
    db'.store.sets = db.store.sets ∧ db'.cache = db.cache ∧ db'.config = db.config := by
  have hkeeps : Step.Keeps (fun x : Database => x.store.sets = db.store.sets ∧ x.cache = db.cache ∧ x.config = db.config)
      (ses.assignIds s count) :=
    assignIds_keeps (fun hx hst => ⟨hst.trans hx.1, hx.2⟩) (fun _ hx => hx) count
  have hkept := (hkeeps db ⟨rfl, rfl, rfl⟩).1
  rwa [h] at hkept

theorem insertMany_stopped (hn : db.store.Named) (hcurrent : db.Current k s)
    (hmemory : ∀ c, db.cache = some c → c.InMemory) (h : ses.insertMany k items db = (.error e, db')) :
    Stopped (WrittenFor db.config.excluded s) s items db.store db'.store := by
  unfold insertMany at h
  split at h
  · cases h
    exact .at_once rfl
  · obtain ⟨e', hrefused⟩ | hprepared := ses.prepare_current_cases hcurrent
    · rw [Step.bind_error hrefused] at h
      cases h
      exact .at_once rfl
    · rw [Step.bind_ok hprepared] at h
      obtain hfailed | ⟨assigned, db₁, hassigned, h⟩ := Step.bind_eq_error.mp h
      · exact .at_once (assignIds_beside hfailed).1
      · obtain ⟨hsets, hcache, hconfig⟩ := assignIds_beside hassigned
        have hstopped := (insertEach_stopped (hn.of_sets hsets) (hcache ▸ hmemory) (idType_assignIds hassigned) h).2
        exact hconfig ▸ hstopped.of_sets hsets

theorem insertManyJson_stopped (hn : db.store.Named) (hcurrent : db.Current k s)
    (hmemory : ∀ c, db.cache = some c → c.InMemory) (h : ses.insertManyJson k texts db = (.error e, db')) :
    Stopped (fun text w => ∃ p, parsedOf db.config.excluded s text = .ok p ∧ WrittenFor db.config.excluded s p.item w)
      s texts db.store db'.store := by
  rcases eq_or_ne texts [] with rfl | hsome
  · cases h
    exact .at_once rfl
  obtain ⟨e', hrefused⟩ | hprepared := ses.prepare_current_cases hcurrent
  · rw [insertManyJson_refused hsome hrefused] at h
    cases h
    exact .at_once rfl
  · cases hread : parsedAll db.config.excluded s texts with
    | error e' =>
      rw [insertManyJson_prepared hsome hprepared, hread] at h
      cases h
      exact .at_once rfl
    | ok ps =>
      have htexts := forall₂_of_parsedAll hread
      have hne : ps.map Parsed.item ≠ [] := fun hnil =>
        hsome (List.forall₂_nil_right_iff.mp (List.map_eq_nil_iff.mp hnil ▸ htexts))
      rw [insertManyJson_of_read hne hprepared hread (writtenAs_of_read hread)] at h
      have hitems : List.Forall₂ (fun text i => ∃ p, parsedOf db.config.excluded s text = .ok p ∧ p.item = i) texts
          (ps.map Parsed.item) :=
        List.forall₂_map_right_iff.mpr (htexts.imp fun _ p hp => ⟨p, hp, rfl⟩)
      refine ((insertMany_stopped hn hcurrent hmemory h).of_read hitems).mono ?_
      rintro text w ⟨_, ⟨p, hp, rfl⟩, hw⟩
      exact ⟨p, hp, hw⟩

/-- Batches fail cleanly. Where the schema of a type is current and what is cached is cached in memory, a batch of texts
    among which, wherever, one is unfit fails and leaves the whole database as it was. Whatever else a batch of items or
    texts fails by, it has stopped between two of them: structures were written for those before, each with its index
    rows, and no other row has come or gone or changed. -/
theorem batches_fail_cleanly (ses : Session) (hst : db.store.Reached fun _ => True) (hcurrent : db.Current k s)
    (hmemory : ∀ c, db.cache = some c → c.InMemory) :
    (∀ texts, (∃ text ∈ texts, Unfit db.config.excluded s text) →
      ∃ e, ses.insertManyJson k texts db = (.error e, db)) ∧
    (∀ items e db', ses.insertMany k items db = (.error e, db') →
      Stopped (WrittenFor db.config.excluded s) s items db.store db'.store) ∧
    ∀ texts e db', ses.insertManyJson k texts db = (.error e, db') →
      Stopped (fun text w => ∃ p, parsedOf db.config.excluded s text = .ok p ∧
        WrittenFor db.config.excluded s p.item w) s texts db.store db'.store := by
  refine ⟨fun texts ⟨text, hin, hunfit⟩ => ?_, fun items e db' h => ?_, fun texts e db' h => ?_⟩
  · exact insertManyJson_unfit hcurrent hin hunfit
  · exact insertMany_stopped hst.filed hcurrent hmemory h
  · exact insertManyJson_stopped hst.filed hcurrent hmemory h

end

/-! ### Tasks that are left without their ids -/

/-- The three tasks in a database that leaves ids out of what it is given. -/
def unnumbered : Database := { taskDatabase with config := { excluded := [idMember] } }

/-- The same once they were prepared. -/
def unnumberedTasks : Database := (taskSession.prepare taskKind unnumbered).2

theorem prepare_unnumbered : taskSession.prepare taskKind unnumbered = (.ok taskSchema, unnumberedTasks) ∧
    unnumberedTasks.cache = none := by
  have hrun : (taskSession.prepare taskKind unnumbered).1 = .ok taskSchema ∧ unnumberedTasks.cache.isNone = true := by
    decide +kernel
  refine ⟨?_, Option.isNone_iff_eq_none.mp hrun.2⟩
  rw [unnumberedTasks, ← hrun.1]

theorem current_unnumbered : unnumberedTasks.Current taskKind taskSchema :=
  ⟨prepare_registered prepare_unnumbered.1, prepare_current prepare_unnumbered.1⟩

theorem reached_unnumbered : unnumberedTasks.store.Reached fun _ => True :=
  prepare_reached prepare_unnumbered.1 reached_tasks

/-- A text breaks off; a fourth task is followed by one with the number of the first; a task without anything in it is
    followed by one whose priority is no number. -/
theorem batches_fail_cleanly_tasks :
    let items : List Item :=
      [⟨.ok (.object [("Priority", .integer 5)]), some (.identity 4)⟩, ⟨.ok (.object []), some (.identity 1)⟩]
    let texts := ["\x7b\x7d", "\x7b\"Priority\":\"high\"\x7d"]
    let taken := taskSession.insertMany taskKind items unnumberedTasks
    let unindexed := taskSession.insertManyJson taskKind texts unnumberedTasks
    (∃ e, taskSession.insertManyJson taskKind ["\x7b\x7d", "\x7b"] unnumberedTasks = (.error e, unnumberedTasks)) ∧
      (taken.1 = .error (.store (.queryFailed "UNIQUE constraint failed: TaskStructure.StructureId")) ∧
        Stopped (WrittenFor [idMember] taskSchema) taskSchema items unnumberedTasks.store taken.2.store ∧
        (taken.2.store.set? taskSchema).map (·.rows.drop 3) =
          some [⟨.integer 4, "\x7b\"Priority\":5,\"StructureId\":4\x7d"⟩]) ∧
      unindexed.1 = .error (.validation (.invalidValue "Priority" "\"high\" is not a Integer value")) ∧
        Stopped (fun text w => ∃ p, parsedOf [idMember] taskSchema text = .ok p ∧
          WrittenFor [idMember] taskSchema p.item w) taskSchema texts unnumberedTasks.store unindexed.2.store ∧
        (unindexed.2.store.set? taskSchema).map (·.rows.drop 3) =
          some [⟨.integer 4, "\x7b\"StructureId\":4\x7d"⟩] := by
  intro items texts taken unindexed
  have hmemory : ∀ c, unnumberedTasks.cache = some c → c.InMemory := fun c hc =>
    absurd (prepare_unnumbered.2.symm.trans hc) nofun
  have hexcluded : unnumberedTasks.config.excluded = [idMember] :=
    congrArg Config.excluded (prepare_config taskSession taskKind unnumbered)
  obtain ⟨hunfit, hitems, htexts⟩ := batches_fail_cleanly taskSession reached_unnumbered current_unnumbered hmemory
  rw [hexcluded] at hitems htexts
  have hbroken : Payload.read "\x7b" = .error (.deserialize "the text is not a JSON document") := by
    have hnone : Json.ofText? "\x7b" = none := Option.isNone_iff_eq_none.mp (by decide +kernel)
    rw [Payload.read, hnone]
  have hruns : (taken.1 = .error (.store (.queryFailed "UNIQUE constraint failed: TaskStructure.StructureId")) ∧
      (taken.2.store.set? taskSchema).map (·.rows.drop 3) =
        some [⟨.integer 4, "\x7b\"Priority\":5,\"StructureId\":4\x7d"⟩]) ∧
      unindexed.1 = .error (.validation (.invalidValue "Priority" "\"high\" is not a Integer value")) ∧
        (unindexed.2.store.set? taskSchema).map (·.rows.drop 3) =
          some [⟨.integer 4, "\x7b\"StructureId\":4\x7d"⟩] := by decide +kernel
  obtain ⟨⟨htaken, htakenRows⟩, hunindexed, hunindexedRows⟩ := hruns
  have htakenStopped := hitems items _ taken.2 (by rw [← htaken])
  have hunindexedStopped := htexts texts _ unindexed.2 (by rw [← hunindexed])
  exact ⟨hunfit _ ⟨_, List.mem_cons_of_mem _ (List.mem_singleton_self _), .unread hbroken⟩,
    ⟨htaken, htakenStopped, htakenRows⟩, hunindexed, hunindexedStopped, hunindexedRows⟩

/-- Where ids are left out of what is given, a text is inserted although the id in it is none of the type, and anywhere
    one in which the id is null. And a batch of nothing fails, of which nothing is a proper part. -/
theorem wrong_ids_inserted :
    let wrong := "\x7b\"StructureId\":-4\x7d"
    (unnumberedTasks.store.Reached (fun _ => True) ∧ unnumberedTasks.Current taskKind taskSchema ∧
      unnumberedTasks.cache = none) ∧
      (Payload.read wrong = .ok (.object [("StructureId", .integer (-4))]) ∧
        (∃ e, DocId.convert (.json (.integer (-4))) taskSchema.idType = .error e) ∧
        (taskSession.insertManyJson taskKind [wrong] unnumberedTasks).1 = .ok [.identity 4]) ∧
      ((∃ e, DocId.convert (.json .null) taskSchema.idType = .error e) ∧
        (taskSession.insertManyJson taskKind ["\x7b\"StructureId\":null\x7d"] taskDatabase).1 = .ok [.identity 4]) ∧
      ∃ e, taskSession.insertMany taskKind [] unnumberedTasks = (.error e, unnumberedTasks) := by
  intro wrong
  have hread : Payload.read wrong = .ok (.object [("StructureId", .integer (-4))]) := by
    have hnumber : Json.Number.ofDecimal? ⟨true, ['4'], none, none⟩ = some (.integer (-4)) := by decide +kernel
    have htokens : Json.Token.ofText? wrong.toList =
        some [.beginObject, .string (some "StructureId"), .colon, .number ⟨true, ['4'], none, none⟩, .endObject] := by
      decide +kernel
    have htree : Json.Tree.ofTokens? [.beginObject, .string (some "StructureId"), .colon,
        .number ⟨true, ['4'], none, none⟩, .endObject] =
        some (.object [(some "StructureId", .number ⟨true, ['4'], none, none⟩)]) := rfl
    rw [Payload.read, Json.ofText?, Json.Tree.ofText?, htokens, Option.bind_some, htree, Option.bind_some, Json.maxDepth,
      Json.ofTree?]
    simp only [Json.membersOfTrees?, Json.ofTree?, hnumber]
    rfl
  have hinserted : (taskSession.insertManyJson taskKind [wrong] unnumberedTasks).1 = .ok [.identity 4] := by decide +kernel
  have hnull : (taskSession.insertManyJson taskKind ["\x7b\"StructureId\":null\x7d"] taskDatabase).1 =
      .ok [.identity 4] := by decide +kernel
  have hnothing : taskSession.insertMany taskKind [] unnumberedTasks =
      (.error (.validation (.emptyCollection "items")), unnumberedTasks) := rfl
  exact ⟨⟨reached_unnumbered, current_unnumbered, prepare_unnumbered.2⟩, ⟨hread, ⟨_, rfl⟩, hinserted⟩,
    ⟨⟨_, rfl⟩, hnull⟩, _, hnothing⟩

end Session

end DocStore
