import DocStore.Proofs.Assoc
import DocStore.Proofs.DocId
import DocStore.Proofs.Store.Sets
import Mathlib.Data.List.Find

/-! What is stored. The set of a type holds each of its ids once, so that a read by id finds the only row of the id or
    none; a read of several ids answers for each of them what a read of this one would answer. -/

namespace DocStore.Store

open Sql (Datum Affinity)

/-! ### Sets of types -/

/-- Schemas of types that have their tables for themselves. A type may change its members, not the type of its ids. -/
structure Apart (types : Schema → Prop) : Prop where
  stem : ∀ {s s' : Schema}, types s → types s' → (s.key = s'.key ↔ folded s.stem = folded s'.stem)
  idType : ∀ {s s' : Schema}, types s → types s' → s.key = s'.key → s.idType = s'.idType

/-- A set as a schema has it: the column of the ids is made for them and holds nothing else, and none of them
    twice. -/
structure TableSet.Of (s : Schema) (t : TableSet) : Prop where
  stem : folded t.stem = folded s.stem
  affinity : t.affinity = .ofIdType s.idType
  ids : ∀ r ∈ t.rows, ∃ id : DocId, id.idType = s.idType ∧ r.id = id.datum
  keyed : t.Keyed

/-- Every set belongs to the type that has its name. -/
def Filed (types : Schema → Prop) (st : Store) : Prop :=
  ∀ e ∈ st.sets, ∀ s, types s → folded s.stem = e.1 → e.2.Of s

/-- The payload of an id. -/
def TableSet.payload? (t : TableSet) (id : DocId) : Option String :=
  (t.rows.find? fun r => decide (r.id = id.datum)).map (·.payload)

/-- The payload that the set of a schema holds for an id. -/
def payload? (st : Store) (s : Schema) (id : DocId) : Option String := (st.set? s).bind (·.payload? id)

section
variable {types : Schema → Prop} {st : Store} {s s' : Schema} {t : TableSet}

theorem Filed.of (hf : st.Filed types) (hs : types s) (hset : st.set? s = some t) : t.Of s :=
  hf (folded s.stem, t) (Assoc.mem_of_get? hset) s hs rfl

theorem filed_new : ({} : Store).Filed types := nofun

theorem set?_congr (h : folded s.stem = folded s'.stem) : st.set? s = st.set? s' := by
  rw [set?, set?, h]

theorem Apart.set?_eq (ha : Apart types) (hs : types s) (hs' : types s') (hkey : s.key = s'.key) :
    st.set? s = st.set? s' :=
  set?_congr ((ha.stem hs hs').mp hkey)

theorem payload?_of_set? (hset : st.set? s = some t) (id : DocId) : st.payload? s id = t.payload? id := by
  rw [payload?, hset]
  rfl

end

/-! ### Rows of a set -/

namespace TableSet.Of

variable {s : Schema} {t : TableSet} (ht : t.Of s)
include ht

theorem idDatum {id : DocId} (hid : id.idType = s.idType) : t.idDatum id = id.datum := by
  rw [TableSet.idDatum, ht.affinity, ← hid]
  exact id.apply_datum

theorem isKey {id : DocId} (hid : id.idType = s.idType) : t.isKey id.datum = true := by
  have haffinity := ht.affinity
  rw [← hid] at haffinity
  cases id with
  | identity n | bigIdentity n => rfl
  | guid g | string x =>
    show (t.affinity != .integer) = true
    rw [haffinity]
    rfl

theorem same_iff {r : StructureRow} (hr : r ∈ t.rows) {id : DocId} (hid : id.idType = s.idType) :
    same r.id id.datum = true ↔ r.id = id.datum := by
  obtain ⟨id', hid', heq⟩ := ht.ids r hr
  rw [heq, DocId.same_datum (hid'.trans hid.symm)]
  exact ⟨fun h => h ▸ rfl, DocId.datum_inj (hid'.trans hid.symm)⟩

theorem finds_iff {r : StructureRow} (hr : r ∈ t.rows) {id : DocId} (hid : id.idType = s.idType) :
    t.finds (t.idDatum id) r.id = true ↔ r.id = id.datum := by
  rw [ht.idDatum hid, TableSet.finds, ht.isKey hid, Bool.true_and, ht.same_iff hr hid]

theorem findsAny_iff {r : StructureRow} (hr : r ∈ t.rows) {ids : List DocId} (hids : ∀ id ∈ ids, id.idType = s.idType) :
    t.findsAny (ids.map t.idDatum) r.id = true ↔ ∃ id ∈ ids, r.id = id.datum := by
  rw [TableSet.findsAny, Option.any_eq_true]
  constructor
  · rintro ⟨d, hfound, -⟩
    obtain ⟨id, hin, rfl⟩ := List.mem_map.mp (List.mem_reverse.mp (List.mem_of_find?_eq_some hfound))
    have hsame := List.find?_some hfound
    rw [ht.idDatum (hids id hin), ht.same_iff hr (hids id hin)] at hsame
    exact ⟨id, hin, hsame⟩
  · rintro ⟨id, hin, heq⟩
    have hsome : ((ids.map t.idDatum).reverse.find? (same r.id)).isSome = true := by
      rw [List.find?_isSome]
      refine ⟨t.idDatum id, List.mem_reverse.mpr (List.mem_map_of_mem hin), ?_⟩
      rw [ht.idDatum (hids id hin), ht.same_iff hr (hids id hin), heq]
    obtain ⟨d, hfound⟩ := Option.isSome_iff_exists.mp hsome
    obtain ⟨id', hin', rfl⟩ := List.mem_map.mp (List.mem_reverse.mp (List.mem_of_find?_eq_some hfound))
    exact ⟨_, hfound, by rw [ht.idDatum (hids id' hin'), ht.isKey (hids id' hin')]⟩

theorem eq_of_id {a b : StructureRow} (ha : a ∈ t.rows) (hb : b ∈ t.rows) (h : a.id = b.id) : a = b :=
  ht.keyed.eq_of_compare ha hb (h ▸ Std.ReflCmp.compare_self)

theorem payload?_eq_some {id : DocId} {p : String} :
    t.payload? id = some p ↔ ∃ r ∈ t.rows, r.id = id.datum ∧ r.payload = p := by
  rw [TableSet.payload?, Option.map_eq_some_iff]
  constructor
  · rintro ⟨r, hfound, rfl⟩
    exact ⟨r, List.mem_of_find?_eq_some hfound, by simpa using List.find?_some hfound, rfl⟩
  · rintro ⟨r, hr, hid, rfl⟩
    have hsome : (t.rows.find? fun r => decide (r.id = id.datum)).isSome = true :=
      List.find?_isSome.mpr ⟨r, hr, decide_eq_true hid⟩
    obtain ⟨r', hfound⟩ := Option.isSome_iff_exists.mp hsome
    have hid' : r'.id = id.datum := by simpa using List.find?_some hfound
    exact ⟨r', hfound, congrArg _ (ht.eq_of_id (List.mem_of_find?_eq_some hfound) hr (hid'.trans hid.symm))⟩

end TableSet.Of

/-! ### Reads by id -/

section
variable {st : Store} {s : Schema} {t : TableSet}

theorem structureSet_some (hset : st.set? s = some t) : st.structureSet s = .ok t := by
  rw [structureSet, hset]

theorem structureSet_eq_ok (h : st.structureSet s = .ok t) : st.set? s = some t := by
  rw [structureSet] at h
  split at h <;> cases h
  assumption

theorem indexSet_eq_ok (h : st.indexSet s = .ok t) : st.set? s = some t := by
  rw [indexSet] at h
  split at h <;> cases h
  assumption

theorem structureSet_none (hset : st.set? s = none) :
    st.structureSet s = .error (.queryFailed (noTable s.structureTable)) := by
  rw [structureSet, hset]

theorem fetch_of (ht : t.Of s) (hset : st.set? s = some t) {id : DocId} (hid : id.idType = s.idType) :
    fetch s id st = (.ok (t.payload? id), st) := by
  have hfind : (t.rows.find? fun r => t.finds (t.idDatum id) r.id) =
      t.rows.find? fun r => decide (r.id = id.datum) := by
    refine List.find?_congr fun r hr => ?_
    rw [Bool.eq_iff_iff, ht.finds_iff hr hid, decide_eq_true_iff]
  show ((st.structureSet s >>= _).mapError Error.store, st) = _
  rw [structureSet_some hset]
  show (Except.ok ((t.rows.find? _).map (·.payload)), st) = _
  rw [hfind]
  rfl

theorem holds_of (ht : t.Of s) (hset : st.set? s = some t) {id : DocId} (hid : id.idType = s.idType) :
    holds s id st = (.ok (t.payload? id).isSome, st) := by
  have hany : (t.rows.any fun r => t.finds (t.idDatum id) r.id) = (t.payload? id).isSome := by
    rw [Bool.eq_iff_iff, List.any_eq_true, TableSet.payload?, Option.isSome_map, List.find?_isSome]
    refine exists_congr fun r => and_congr_right fun hr => ?_
    rw [ht.finds_iff hr hid, decide_eq_true_iff]
  show ((st.structureSet s >>= _).mapError Error.store, st) = _
  rw [structureSet_some hset]
  show (Except.ok (t.rows.any _), st) = _
  rw [hany]

/-! ### Reads of several ids -/

theorem flatten_chunks {α : Type} (n : Nat) (xs : List α) : (chunks n xs).flatten = xs := by
  induction xs using chunks.induct n with
  | case1 => rw [chunks]; rfl
  | case2 x xs ih => rw [chunks, List.flatten_cons, ih, List.cons_append, List.take_append_drop]

theorem idType_idsOf {ty : IdType} : ∀ {ds : List Datum} {ids : List DocId}, idsOf ty ds = .ok ids →
    ∀ id ∈ ids, id.idType = ty
  | [], _, h => by
    cases h
    exact nofun
  | d :: ds, ids, h => by
    rw [idsOf] at h
    split at h
    · cases h
    · rename_i id hone
      obtain ⟨rest, hrest, rfl⟩ := map_eq_ok.mp h
      intro id' hid'
      rcases List.mem_cons.mp hid' with rfl | hid'
      · exact DocId.idType_idOf hone
      · exact idType_idsOf hrest id' hid'

theorem idType_idsWhere {f : CompiledFilter} {ids : List DocId} (h : (idsWhere s f st).1 = .ok ids) :
    ∀ id ∈ ids, id.idType = s.idType := by
  obtain ⟨found, -, hback⟩ := bind_eq_ok.mp h
  exact idType_idsOf hback

/-- What is read back with the payloads is, for each row, its id. -/
theorem mem_zip_idsOf {ty : IdType} : ∀ {rows : List StructureRow} {back : List DocId},
    (∀ r ∈ rows, ∃ id : DocId, id.idType = ty ∧ r.id = id.datum) → idsOf ty (rows.map (·.id)) = .ok back →
    ∀ {id : DocId} {p : String}, (id, p) ∈ back.zip (rows.map (·.payload)) ↔
      ∃ r ∈ rows, id.idType = ty ∧ r.id = id.datum ∧ r.payload = p
  | [], _, _, h, id, p => by
    cases h
    exact ⟨nofun, by rintro ⟨r, hr, -⟩; cases hr⟩
  | r :: rows, back, hids, h, id, p => by
    obtain ⟨id', hid', hr⟩ := hids r (List.mem_cons_self ..)
    rw [List.map_cons, idsOf] at h
    cases hone : idOf ty r.id with
    | error e => rw [hone] at h; cases h
    | ok i =>
      rw [hone] at h
      obtain ⟨rest, hrest, rfl⟩ := map_eq_ok.mp h
      subst hid'
      rw [hr] at hone
      obtain rfl := DocId.idOf_datum hone
      rw [List.map_cons, List.zip_cons_cons, List.mem_cons,
        mem_zip_idsOf (fun r hr => hids r (List.mem_cons_of_mem _ hr)) hrest]
      constructor
      · rintro (heq | ⟨r', hin, hr'⟩)
        · cases heq
          exact ⟨r, List.mem_cons_self .., rfl, hr, rfl⟩
        · exact ⟨r', List.mem_cons_of_mem _ hin, hr'⟩
      · rintro ⟨r', hin, hty, hr', rfl⟩
        rcases List.mem_cons.mp hin with rfl | hin
        · rw [DocId.datum_inj hty (hr'.symm.trans hr)]
          exact Or.inl rfl
        · exact Or.inr ⟨r', hin, hty, hr', rfl⟩

theorem idsOf_ok {ty : IdType} : ∀ {rows : List StructureRow},
    (∀ r ∈ rows, ∃ id : DocId, id.idType = ty ∧ id.Readable ∧ r.id = id.datum) →
    ∃ back, idsOf ty (rows.map (·.id)) = .ok back
  | [], _ => ⟨[], rfl⟩
  | r :: rows, hids => by
    obtain ⟨id, rfl, hone, hr⟩ := hids r (List.mem_cons_self ..)
    obtain ⟨back, hback⟩ := idsOf_ok fun r hr => hids r (List.mem_cons_of_mem _ hr)
    rw [DocId.Readable] at hone
    exact ⟨id :: back, by rw [List.map_cons, idsOf, hr, hone, hback]; rfl⟩

/-- An id that can be asked for: if it is in a set, it can be read back from there. -/
def TableSet.Returns (t : TableSet) (id : DocId) : Prop := ∀ p, t.payload? id = some p → id.Readable

/-- The rows that one statement finds for some ids. -/
def foundBy (t : TableSet) (ids : List DocId) : List StructureRow :=
  byId (t.rowsWhere (t.findsAny (ids.map t.idDatum)))

theorem fetchChunk_of (hset : st.set? s = some t) (ids : List DocId) :
    fetchChunk s st ids =
      (idsOf s.idType ((foundBy t ids).map (·.id))).map (·.zip ((foundBy t ids).map (·.payload))) := by
  rw [fetchChunk, structureSet_some hset]
  show (idsOf s.idType ((foundBy t ids).map (·.id)) >>= _) = _
  cases idsOf s.idType ((foundBy t ids).map (·.id)) <;> rfl

theorem mem_foundBy {ids : List DocId} {r : StructureRow} (h : r ∈ foundBy t ids) : r ∈ t.rows :=
  (List.mem_filter.mp (List.mem_mergeSort.mp h)).1

theorem mem_foundBy_iff (ht : t.Of s) {ids : List DocId} (hids : ∀ id ∈ ids, id.idType = s.idType) {r : StructureRow} :
    r ∈ foundBy t ids ↔ r ∈ t.rows ∧ ∃ id ∈ ids, r.id = id.datum := by
  refine List.mem_mergeSort.trans (List.mem_filter.trans (and_congr_right fun hr => ht.findsAny_iff hr hids))

theorem fetchChunks_eq_ok : ∀ {parts : List (List DocId)} {rows : List (DocId × String)},
    fetchChunks s st parts = .ok rows →
    ∀ x, x ∈ rows ↔ ∃ ids ∈ parts, ∃ found, fetchChunk s st ids = .ok found ∧ x ∈ found
  | [], _, h, x => by
    cases h
    exact ⟨nofun, by rintro ⟨ids, hin, -⟩; cases hin⟩
  | ids :: parts, rows, h, x => by
    rw [fetchChunks] at h
    cases hone : fetchChunk s st ids with
    | error e => rw [hone] at h; cases h
    | ok found =>
      rw [hone] at h
      obtain ⟨rest, hrest, rfl⟩ := map_eq_ok.mp h
      rw [List.mem_append, fetchChunks_eq_ok hrest]
      simp only [List.mem_cons, exists_eq_or_imp]
      refine or_congr_left ⟨fun hx => ⟨found, hone, hx⟩, ?_⟩
      rintro ⟨found', heq, hx⟩
      rw [hone] at heq
      cases heq
      exact hx

/-- What a read of several ids finds is what is stored. -/
theorem payload?_of_fetchMany (ht : t.Of s) (hset : st.set? s = some t) {ids : List DocId}
    {rows : List (DocId × String)} (h : (fetchMany s ids st).1 = .ok rows) {x : DocId × String} (hx : x ∈ rows) :
    x.1.idType = s.idType ∧ t.payload? x.1 = some x.2 := by
  obtain ⟨part, -, found, hfound, hx⟩ := (fetchChunks_eq_ok h x).mp hx
  rw [fetchChunk_of hset, map_eq_ok] at hfound
  obtain ⟨back, hback, rfl⟩ := hfound
  obtain ⟨r, hr, hty, hid, hpayload⟩ := (mem_zip_idsOf (fun r hr => ht.ids r (mem_foundBy hr)) hback).mp hx
  exact ⟨hty, ht.payload?_eq_some.mpr ⟨r, mem_foundBy hr, hid, hpayload⟩⟩

theorem fetchChunk_ok (ht : t.Of s) (hset : st.set? s = some t) {ids : List DocId}
    (hids : ∀ id ∈ ids, id.idType = s.idType ∧ t.Returns id) : ∃ found, fetchChunk s st ids = .ok found ∧
      ∀ id ∈ ids, ∀ p, t.payload? id = some p → (id, p) ∈ found := by
  have htypes : ∀ id ∈ ids, id.idType = s.idType := fun id hid => (hids id hid).1
  have hreadable : ∀ r ∈ foundBy t ids, ∃ id : DocId, id.idType = s.idType ∧ id.Readable ∧ r.id = id.datum := by
    intro r hr
    obtain ⟨hrow, id, hid, heq⟩ := (mem_foundBy_iff ht htypes).mp hr
    exact ⟨id, (hids id hid).1, (hids id hid).2 _ (ht.payload?_eq_some.mpr ⟨r, hrow, heq, rfl⟩), heq⟩
  obtain ⟨back, hback⟩ := idsOf_ok hreadable
  refine ⟨_, by rw [fetchChunk_of hset, hback]; rfl, fun id hid p hp => ?_⟩
  obtain ⟨r, hr, heq, hpayload⟩ := ht.payload?_eq_some.mp hp
  refine (mem_zip_idsOf (fun r hr => ht.ids r (mem_foundBy hr)) hback).mpr ⟨r, ?_, htypes id hid, heq, hpayload⟩
  exact (mem_foundBy_iff ht htypes).mpr ⟨hr, id, hid, heq⟩

theorem fetchChunks_ok (ht : t.Of s) (hset : st.set? s = some t) : ∀ {parts : List (List DocId)},
    (∀ ids ∈ parts, ∀ id ∈ ids, id.idType = s.idType ∧ t.Returns id) → ∃ rows, fetchChunks s st parts = .ok rows ∧
      ∀ ids ∈ parts, ∀ id ∈ ids, ∀ p, t.payload? id = some p → (id, p) ∈ rows
  | [], _ => ⟨[], rfl, nofun⟩
  | ids :: parts, hparts => by
    obtain ⟨found, hfound, hfirst⟩ := fetchChunk_ok ht hset (hparts ids (List.mem_cons_self ..))
    obtain ⟨rows, hrows, hrest⟩ := fetchChunks_ok ht hset fun ids hin => hparts ids (List.mem_cons_of_mem _ hin)
    refine ⟨found ++ rows, by rw [fetchChunks, hfound, hrows]; rfl, ?_⟩
    intro ids' hin id hid p hp
    rw [List.mem_append]
    rcases List.mem_cons.mp hin with rfl | hin
    · exact Or.inl (hfirst id hid p hp)
    · exact Or.inr (hrest ids' hin id hid p hp)

/-- A read of several ids finds for each of them what is stored, if what is stored of them can be read back. -/
theorem fetchMany_of (ht : t.Of s) (hset : st.set? s = some t) {ids : List DocId}
    (hids : ∀ id ∈ ids, id.idType = s.idType ∧ t.Returns id) : ∃ rows, fetchMany s ids st = (.ok rows, st) ∧
      ∀ id ∈ ids, (Assoc.insertAll [] rows).get? id = t.payload? id := by
  have hmem : ∀ {id}, id ∈ ids ↔ ∃ part ∈ idChunks ids, id ∈ part := by
    intro id
    rw [← List.mem_flatten, idChunks, flatten_chunks]
  have hparts : ∀ part ∈ idChunks ids, ∀ id ∈ part, id.idType = s.idType ∧ t.Returns id := fun part hpart id hid =>
    hids id (hmem.mpr ⟨part, hpart, hid⟩)
  obtain ⟨rows, hrows, hall⟩ := fetchChunks_ok ht hset hparts
  refine ⟨rows, congrArg (·, st) hrows, fun id hid => ?_⟩
  rw [Assoc.get?_insertAll_of (g := t.payload?) fun x hx => (payload?_of_fetchMany ht hset hrows hx).2]
  cases hp : t.payload? id with
  | none => exact ite_self _
  | some p =>
    obtain ⟨part, hpart, hin⟩ := hmem.mp hid
    exact if_pos (List.mem_map_of_mem (f := (·.1)) (hall part hpart id hin p hp))

theorem fetchMany_none (hset : st.set? s = none) {ids : List DocId} (hids : ids ≠ []) :
    fetchMany s ids st = (.error (.store (.queryFailed (noTable s.structureTable))), st) := by
  cases ids with
  | nil => exact absurd rfl hids
  | cons id ids =>
    have hfails : fetchChunk s st (id :: ids.take 499) = .error (.store (.queryFailed (noTable s.structureTable))) := by
      rw [fetchChunk, structureSet_none hset]
      rfl
    show (fetchChunks s st (idChunks (id :: ids)), st) = _
    rw [idChunks, chunks, fetchChunks, hfails]

section
variable {types : Schema → Prop} (hf : st.Filed types) (hs : types s)
include hf hs

theorem fetch_eq_some {id : DocId} (hid : id.idType = s.idType) {payload : String} :
    (fetch s id st).1 = .ok (some payload) ↔ st.payload? s id = some payload := by
  cases hset : st.set? s with
  | none =>
    have hfails : (fetch s id st).1 = .error (.store (.queryFailed (noTable s.structureTable))) := by
      show (st.structureSet s >>= _).mapError Error.store = _
      rw [structureSet_none hset]
      rfl
    rw [hfails, payload?, hset]
    exact ⟨nofun, nofun⟩
  | some t =>
    rw [fetch_of (hf.of hs hset) hset hid, payload?_of_set? hset]
    exact ⟨Except.ok.inj, congrArg _⟩

theorem holds_of_payload? {id : DocId} (hid : id.idType = s.idType) {payload : String}
    (h : st.payload? s id = some payload) : (holds s id st).1 = .ok true := by
  cases hset : st.set? s with
  | none =>
    rw [payload?, hset] at h
    cases h
  | some t =>
    rw [payload?_of_set? hset] at h
    rw [holds_of (hf.of hs hset) hset hid, h]
    rfl

theorem payload?_of_get?_fetchMany {ids : List DocId} {rows : List (DocId × String)}
    (h : (fetchMany s ids st).1 = .ok rows) {id : DocId} {payload : String}
    (hx : (Assoc.insertAll [] rows).get? id = some payload) :
    id.idType = s.idType ∧ st.payload? s id = some payload := by
  cases hset : st.set? s with
  | none =>
    -- only a read of no ids at all can do without the set
    cases ids with
    | nil =>
      have hnothing : idChunks [] = [] := by rw [idChunks, chunks]
      have hrows : fetchChunks s st (idChunks []) = .ok rows := h
      rw [hnothing] at hrows
      cases hrows
      cases hx
    | cons id ids =>
      rw [fetchMany_none hset (List.cons_ne_nil id ids)] at h
      cases h
  | some t =>
    have hrow := fun {x} hx => payload?_of_fetchMany (x := x) (hf.of hs hset) hset h hx
    rw [Assoc.get?_insertAll_of (g := t.payload?) fun x hx => (hrow hx).2] at hx
    split at hx
    · rename_i hin
      obtain ⟨x, hmem, rfl⟩ := List.mem_map.mp hin
      exact ⟨(hrow hmem).1, (payload?_of_set? hset _).trans hx⟩
    · cases hx

end

end

end DocStore.Store
