import DocStore.Proofs.Store.Outcomes

/-! What writes do to what is stored. A write leaves the payloads of other types alone, and of its own type
    those of other ids; a write that fails leaves everything alone. -/

namespace DocStore.Store

open Sql (Datum Affinity)

/-! ### Changes of a store -/

/-- From one store to the next the sets stay those of their types, and of the payloads only some of one type get
    lost. -/
structure Wrote (types : Schema → Prop) (key : Key) (lost : DocId → Prop) (st st' : Store) : Prop where
  filed : st'.Filed types
  kept : ∀ {s : Schema} {id : DocId} {p : String}, types s → id.idType = s.idType → ¬(s.key = key ∧ lost id) →
    st.payload? s id = some p → st'.payload? s id = some p

/-- A step that makes such a change or fails and changes nothing. -/
structure Writes (types : Schema → Prop) (key : Key) (lost : DocId → Prop) {α : Type} (m : Do α) : Prop where
  ok : ∀ {st st' : Store} {a : α}, st.Filed types → m st = (.ok a, st') → Wrote types key lost st st'
  error : ∀ {st st' : Store} {e : Error}, m st = (.error e, st') → st' = st

section
variable {types : Schema → Prop} {key : Key} {lost : DocId → Prop} {st st' : Store}

theorem Filed.of_sets (hf : st.Filed types) (h : st'.sets = st.sets) : st'.Filed types := by
  unfold Filed
  rw [h]
  exact hf

theorem payload?_of_sets (h : st'.sets = st.sets) (s : Schema) (id : DocId) : st'.payload? s id = st.payload? s id := by
  rw [payload?, payload?, set?, set?, h]

theorem Wrote.of_sets (hf : st.Filed types) (h : st'.sets = st.sets) : Wrote types key lost st st' :=
  ⟨hf.of_sets h, fun _ _ _ hp => (payload?_of_sets h ..).trans hp⟩

theorem Wrote.refl (hf : st.Filed types) : Wrote types key lost st st := .of_sets hf rfl

theorem Wrote.trans {st'' : Store} (h : Wrote types key lost st st') (h' : Wrote types key lost st' st'') :
    Wrote types key lost st st'' :=
  ⟨h'.filed, fun hs hid hno hp => h'.kept hs hid hno (h.kept hs hid hno hp)⟩

theorem Wrote.mono {lost' : DocId → Prop} (h : Wrote types key lost st st') (hl : ∀ id, lost id → lost' id) :
    Wrote types key lost' st st' :=
  ⟨h.filed, fun hs hid hno => h.kept hs hid fun hlost => hno ⟨hlost.1, hl _ hlost.2⟩⟩

theorem set?_putSet (st : Store) (t : TableSet) (s : Schema) :
    (st.putSet t).set? s = if folded t.stem = folded s.stem then some t else st.set? s :=
  Assoc.get?_insert ..

theorem Wrote.putSet (ha : Apart types) (hf : st.Filed types) {s : Schema} (hs : types s) {t' : TableSet}
    (ht' : t'.Of s)
    (hkept : ∀ {id p}, id.idType = s.idType → ¬lost id → st.payload? s id = some p → t'.payload? id = some p) :
    Wrote types s.key lost st (st.putSet t') where
  filed e he s' hs' hname := by
    rcases Assoc.mem_insert he with rfl | hin
    · -- another schema may belong to the set, but only one of the same type
      have hkey : s'.key = s.key := (ha.stem hs' hs).mpr (hname.trans ht'.stem)
      refine ⟨hname.symm, ?_, ?_, ht'.keyed⟩
      · rw [ht'.affinity, ha.idType hs' hs hkey]
      · rw [ha.idType hs' hs hkey]
        exact ht'.ids
    · exact hf e hin s' hs' hname
  kept {s' id p} hs' hid hno hp := by
    rw [payload?, set?_putSet]
    by_cases hname : folded t'.stem = folded s'.stem
    · have hkey : s'.key = s.key := (ha.stem hs' hs).mpr (hname.symm.trans ht'.stem)
      rw [payload?, ha.set?_eq hs' hs hkey] at hp
      rw [if_pos hname]
      exact hkept (hid.trans (ha.idType hs' hs hkey)) (fun hl => hno ⟨hkey, hl⟩) hp
    · rw [if_neg hname]
      exact hp

/-- A change that is made as a whole or not at all. -/
theorem Writes.transaction {α : Type} {f : Store → Except Error (α × Store)}
    (h : ∀ {st st' : Store} {a : α}, st.Filed types → Step.transaction f st = (.ok a, st') →
      Wrote types key lost st st') :
    Writes types key lost (Step.transaction f) :=
  ⟨h, Step.transaction_eq_error⟩

theorem Writes.guarded {α : Type} {m : Do α} (hw : Writes types key lost m) (c : Client) :
    Writes types key lost (c.guarded m) := by
  rw [Client.guarded]
  split
  · exact ⟨by rintro _ _ _ _ ⟨⟩, by rintro _ _ _ ⟨⟩; rfl⟩
  · exact hw

end

/-! ### Rows of one set -/

namespace TableSet

/-- Two sets that differ in their index rows and indexes at most. -/
structure SameRows (t t' : TableSet) : Prop where
  rows : t'.rows = t.rows
  stem : t'.stem = t.stem
  affinity : t'.affinity = t.affinity

variable {s : Schema} {t t' : TableSet}

theorem SameRows.of (h : SameRows t t') (ht : t.Of s) : t'.Of s where
  stem := h.stem ▸ ht.stem
  affinity := h.affinity ▸ ht.affinity
  ids := h.rows ▸ ht.ids
  keyed := by
    rw [Keyed, h.rows]
    exact ht.keyed

theorem SameRows.payload? (h : SameRows t t') (id : DocId) : t'.payload? id = t.payload? id := by
  rw [TableSet.payload?, TableSet.payload?, h.rows]

theorem sameRows_withoutIndexRows (t : TableSet) (q : Datum → Bool) : SameRows t (t.withoutIndexRows q) :=
  ⟨rfl, rfl, rfl⟩

theorem insertEntries_sameRows {id : Datum} {es : List IndexEntry} (h : insertEntries id t es = .ok t') :
    SameRows t t' := by
  rw [insertEntries_eq_ok h]
  exact ⟨rfl, rfl, rfl⟩

end TableSet

namespace TableSet.Of

variable {s : Schema} {t : TableSet} (ht : t.Of s) {id : DocId} (hid : id.idType = s.idType)
include ht

include hid in
theorem insertRow {p : String} {t' : TableSet} (h : t.insertRow (t.idDatum id) p = .ok t') :
    t'.Of s ∧ ∀ {id' p'}, t.payload? id' = some p' → t'.payload? id' = some p' := by
  obtain ⟨rfl, hnew⟩ := insertRow_eq_ok h
  rw [ht.idDatum hid] at hnew ⊢
  have hof : ({ t with rows := t.rows ++ [⟨id.datum, p⟩] } : TableSet).Of s := by
    refine ⟨ht.stem, ht.affinity, ?_, ?_⟩
    · intro r hr
      rcases List.mem_append.mp hr with hr | hr
      · exact ht.ids r hr
      · rw [List.mem_singleton.mp hr]
        exact ⟨id, hid, rfl⟩
    · refine List.pairwise_append.mpr ⟨ht.keyed, List.pairwise_singleton .., ?_⟩
      intro r hr r' hr' heq
      rw [List.mem_singleton.mp hr'] at heq
      -- an id equal to the new one would have refused it
      obtain ⟨id', hid', hdatum⟩ := ht.ids r hr
      have hnull : ∀ i : DocId, i.datum ≠ .null := fun i => by cases i <;> exact nofun
      have hsame : same r.id id.datum = true := by
        rw [Datum.same_eq_stands, Datum.stands_eq]
        exact ⟨hdatum ▸ hnull id', hnull id, heq⟩
      rw [hnew r hr] at hsame
      cases hsame
  refine ⟨hof, fun {id' p'} hp => ?_⟩
  obtain ⟨r, hr, hrow⟩ := ht.payload?_eq_some.mp hp
  exact hof.payload?_eq_some.mpr ⟨r, List.mem_append_left _ hr, hrow⟩

include hid in
theorem withPayload (p : String) : (t.withPayload (t.idDatum id) p).Of s ∧
    ∀ {id' p'}, id'.idType = s.idType → id' ≠ id → t.payload? id' = some p' →
      (t.withPayload (t.idDatum id) p).payload? id' = some p' := by
  have hids : ∀ r, (if same r.id (t.idDatum id) then { r with payload := p } else r : StructureRow).id = r.id := by
    intro r
    split <;> rfl
  have hof : (t.withPayload (t.idDatum id) p).Of s := by
    refine ⟨ht.stem, ht.affinity, ?_, ?_⟩
    · intro r hr
      obtain ⟨r', hr', rfl⟩ := List.mem_map.mp hr
      rw [hids]
      exact ht.ids r' hr'
    · refine List.pairwise_map.mpr (ht.keyed.imp fun {a b} hne => ?_)
      rw [hids, hids]
      exact hne
  refine ⟨hof, fun {id' p'} hid' hne hp => ?_⟩
  obtain ⟨r, hr, hdatum, hpayload⟩ := ht.payload?_eq_some.mp hp
  refine hof.payload?_eq_some.mpr ⟨r, List.mem_map.mpr ⟨r, hr, if_neg ?_⟩, hdatum, hpayload⟩
  rw [ht.idDatum hid, ht.same_iff hr hid, hdatum]
  exact fun heq => hne (DocId.datum_inj (hid'.trans hid.symm) heq)

/-- Of the payloads those get lost whose rows are taken out. -/
theorem withoutRows (q : Datum → Bool) : (t.withoutRows q).Of s ∧
    ∀ {id' p'}, (∀ r ∈ t.rows, r.id = id'.datum → q r.id = false) → t.payload? id' = some p' →
      (t.withoutRows q).payload? id' = some p' := by
  have hof : (t.withoutRows q).Of s := by
    refine ⟨ht.stem, ht.affinity, fun r hr => ht.ids r (List.mem_filter.mp hr).1, ?_⟩
    exact ht.keyed.sublist List.filter_sublist
  refine ⟨hof, fun {id' p'} hq hp => ?_⟩
  obtain ⟨r, hr, hdatum, hpayload⟩ := ht.payload?_eq_some.mp hp
  refine hof.payload?_eq_some.mpr ⟨r, List.mem_filter.mpr ⟨hr, ?_⟩, hdatum, hpayload⟩
  rw [hq r hr hdatum]
  rfl

end TableSet.Of

/-! ### Structures -/

section
variable {types : Schema → Prop} (ha : Apart types) {s : Schema} (hs : types s)
include ha hs

theorem insert_writes {id : DocId} (hid : id.idType = s.idType) (payload : String) (es : List IndexEntry) :
    Writes types s.key (fun _ => False) (insert s id payload es) := by
  refine .transaction fun hf h => ?_
  obtain ⟨t, t₁, t₂, hset, hrow, hentries, rfl⟩ := insert_eq_ok h
  obtain ⟨hof, hkept⟩ := (hf.of hs hset).insertRow hid hrow
  have hsame := TableSet.insertEntries_sameRows hentries
  refine .putSet ha hf hs (hsame.of hof) fun _ _ hp => ?_
  rw [payload?_of_set? hset] at hp
  rw [hsame.payload?]
  exact hkept hp

theorem replace_writes {id : DocId} (hid : id.idType = s.idType) (payload : String) (es : List IndexEntry) :
    Writes types s.key (· = id) (replace s id payload es) := by
  refine .transaction fun hf h => ?_
  obtain ⟨t, t', hset, -, hentries, rfl⟩ := replace_eq_ok h
  obtain ⟨hof, hkept⟩ := (hf.of hs hset).withPayload hid payload
  have hsame := TableSet.insertEntries_sameRows hentries
  have hindex := TableSet.sameRows_withoutIndexRows (t.withPayload (t.idDatum id) payload) (same · (t.idDatum id))
  refine .putSet ha hf hs (hsame.of (hindex.of hof)) fun hid' hne hp => ?_
  rw [payload?_of_set? hset] at hp
  rw [hsame.payload?, hindex.payload?]
  exact hkept hid' hne hp

theorem deleteChunk_wrote {st st' : Store} (hf : st.Filed types) {ids : List DocId}
    (hids : ∀ id ∈ ids, id.idType = s.idType) {n : Nat} (h : deleteChunk s st ids = .ok (n, st')) :
    Wrote types s.key (· ∈ ids) st st' := by
  obtain ⟨t, _, hset, rfl, rfl⟩ := deleteChunk_eq_ok h
  have ht := hf.of hs hset
  obtain ⟨hof, hkept⟩ := ((TableSet.sameRows_withoutIndexRows t _).of ht).withoutRows (t.findsAny (ids.map t.idDatum))
  refine .putSet ha hf hs hof fun {id p} hid hnot hp => ?_
  rw [payload?_of_set? hset] at hp
  refine hkept (fun r hr hdatum => ?_) hp
  rw [Bool.eq_false_iff, ne_eq, ht.findsAny_iff hr hids]
  rintro ⟨id', hin, heq⟩
  rw [DocId.datum_inj (hid.trans (hids id' hin).symm) (hdatum.symm.trans heq)] at hnot
  exact hnot hin

theorem deleteChunks_wrote : ∀ {parts : List (List DocId)} {st st' : Store} {n : Nat}, st.Filed types →
    (∀ ids ∈ parts, ∀ id ∈ ids, id.idType = s.idType) → deleteChunks s st parts = .ok (n, st') →
    Wrote types s.key (· ∈ parts.flatten) st st'
  | [], st, st', n, hf, _, h => by
    cases h
    exact .refl hf
  | ids :: parts, st, st', n, hf, hids, h => by
    obtain ⟨n₁, n₂, st₁, hone, hrest⟩ := deleteChunks_cons_eq_ok h
    have hfirst := deleteChunk_wrote ha hs hf (hids ids (List.mem_cons_self ..)) hone
    have hlast := deleteChunks_wrote hfirst.filed (fun ids hin => hids ids (List.mem_cons_of_mem _ hin)) hrest
    rw [List.flatten_cons]
    exact (hfirst.mono fun _ => List.mem_append_left _).trans (hlast.mono fun _ => List.mem_append_right _)

theorem deleteMany_writes {ids : List DocId} (hids : ∀ id ∈ ids, id.idType = s.idType) :
    Writes types s.key (· ∈ ids) (deleteMany s ids) := by
  refine .transaction fun hf h => ?_
  have hall : ∀ part ∈ idChunks ids, ∀ id ∈ part, id.idType = s.idType := by
    intro part hpart id hin
    refine hids id ?_
    rw [← flatten_chunks 499 ids]
    exact List.mem_flatten.mpr ⟨part, hpart, hin⟩
  have hwrote := deleteChunks_wrote ha hs hf hall (writing_eq_ok h)
  rwa [idChunks, flatten_chunks] at hwrote

/-- A deletion of an interval may lose anything of the type. -/
theorem deleteInterval_writes (low high : DocId) : Writes types s.key (fun _ => True) (deleteInterval s low high) := by
  refine .transaction fun hf h => ?_
  obtain ⟨t, p, hset, -, rfl⟩ := deleteInterval_eq_ok h
  obtain ⟨hof, -⟩ := ((TableSet.sameRows_withoutIndexRows t p).of (hf.of hs hset)).withoutRows p
  exact .putSet ha hf hs hof fun _ hnot => absurd trivial hnot

end

theorem reserve_writes {types : Schema → Prop} (s : Schema) (count : Nat) :
    Writes types s.key (fun _ => False) (reserve s count) :=
  .transaction fun hf h => .of_sets hf (reserve_sets h)

theorem Client.reserve_writes {types : Schema → Prop} (c : Client) (s : Schema) (count : Nat) :
    Writes types s.key (fun _ => False) (c.reserve s count) := by
  cases hcheck : checkIdentities "reserve_identities" s with
  | error e =>
    have happly (st : Store) : c.reserve s count st = (.error e, st) := Step.bind_error (congrArg (·, st) hcheck) _
    refine ⟨fun {st st' a} _ h => ?_, fun {st st' e} h => ?_⟩ <;> rw [happly] at h <;> cases h
    rfl
  | ok u =>
    have happly (st : Store) : c.reserve s count st = c.guarded (Store.reserve s count) st :=
      Step.bind_ok (congrArg (·, st) hcheck) _
    have hw : Writes types s.key (fun _ => False) (c.guarded (Store.reserve s count)) :=
      (Store.reserve_writes s count).guarded c
    exact ⟨fun hf h => hw.ok hf (happly _ ▸ h), fun h => hw.error (happly _ ▸ h)⟩

/-! ### Sets -/

section
variable {types : Schema → Prop} (ha : Apart types) {s : Schema} (hs : types s)
include ha hs

theorem withTables_wrote {st st' : Store} (hf : st.Filed types) (h : withTables s st = .ok st') :
    Wrote types s.key (fun _ => False) st st' := by
  rcases withTables_eq_ok h with ⟨rfl, -⟩ | ⟨hset, rfl⟩
  · exact .refl hf
  · refine .putSet ha hf hs ⟨rfl, rfl, nofun, List.Pairwise.nil⟩ fun _ _ hp => ?_
    rw [payload?, hset] at hp
    cases hp

theorem Wrote.putSame {st : Store} (hf : st.Filed types) {t t' : TableSet} (hset : st.set? s = some t)
    (hsame : TableSet.SameRows t t') : Wrote types s.key (fun _ => False) st (st.putSet t') := by
  refine .putSet ha hf hs (hsame.of (hf.of hs hset)) fun _ _ hp => ?_
  rw [hsame.payload?, ← payload?_of_set? hset]
  exact hp

theorem ensureIndex_wrote {st st' : Store} (hf : st.Filed types) {i : Index} (h : ensureIndex s st i = .ok st') :
    Wrote types s.key (fun _ => False) st st' := by
  rcases ensureIndex_eq_ok h with rfl | ⟨t, indexes, hset, rfl⟩
  · exact .refl hf
  · exact .putSame ha hs hf hset ⟨rfl, rfl, rfl⟩

theorem ensureIndexes_wrote : ∀ {is : List Index} {st st' : Store}, st.Filed types →
    is.foldlM (ensureIndex s) st = .ok st' → Wrote types s.key (fun _ => False) st st'
  | [], st, st', hf, h => by
    cases h
    exact .refl hf
  | i :: is, st, st', hf, h => by
    rw [List.foldlM_cons] at h
    obtain ⟨st₁, hone, hrest⟩ := bind_eq_ok.mp h
    have hfirst := ensureIndex_wrote ha hs hf hone
    exact hfirst.trans (ensureIndexes_wrote hfirst.filed hrest)

theorem shaped_wrote {st st' : Store} (hf : st.Filed types) (h : shaped s st = .ok st') :
    Wrote types s.key (fun _ => False) st st' := by
  obtain ⟨st₁, st₂, htables, hindexes, h⟩ := shaped_eq_ok h
  have hfirst := withTables_wrote ha hs hf htables
  have hsecond := ensureIndexes_wrote ha hs hfirst.filed hindexes
  rcases h with ⟨-, rfl⟩ | ⟨t, hset, rfl⟩
  · exact hfirst.trans hsecond
  · have hstale : TableSet.SameRows t (t.withoutStale s) := ⟨rfl, rfl, rfl⟩
    exact (hfirst.trans hsecond).trans (.putSame ha hs hsecond.filed hset hstale)

theorem upsert_writes : Writes types s.key (fun _ => False) (upsert s) := by
  refine .transaction fun hf h => ?_
  obtain ⟨b, -, ⟨-, rfl⟩ | ⟨st₁, hshaped, rfl⟩⟩ := upsert_eq_ok h
  · exact .refl hf
  · have hwrote := shaped_wrote ha hs hf hshaped
    exact hwrote.trans (.of_sets hwrote.filed rfl)

/-- Dropping a set loses what it held. -/
theorem drop_writes : Writes types s.key (fun _ => True) (drop s) := by
  refine .transaction fun {st st' a} hf h => ?_
  have hsets := drop_sets h
  refine ⟨fun e he => hf e (List.mem_filter.mp (hsets ▸ he)).1, fun {s' id p} hs' _ hno hp => ?_⟩
  have hname : folded s.stem ≠ folded s'.stem := fun heq => hno ⟨(ha.stem hs' hs).mpr heq.symm, trivial⟩
  rw [payload?, set?, hsets, Assoc.get?_erase, if_neg hname]
  exact hp

end

/-! ### The database -/

/-- The lifecycle makes databases and empties stores. -/
theorem manage_keeps_of {I : Store → Prop} (hcreated : ∀ st, I st → I st.created) (hemptied : ∀ st, I st → I st.emptied)
    (c : Store.Call) : Step.Keeps I (perform c) := by
  have hcreating {f : Store → Store} (hf : ∀ st, I st → I (f st)) : Step.Keeps I (creating f) := by
    refine .transaction fun st hst u st' hdone => ⟨?_, trivial⟩
    split at hdone <;> cases hdone
    exact hf st hst
  cases c with
  | ensureNew => exact hcreating fun st hst => hcreated _ (hemptied st hst)
  | create => exact hcreating hcreated
  | dropDatabase => exact .of_state hemptied
  | openExisting =>
    refine .transaction fun st hst u st' hdone => ⟨?_, trivial⟩
    split at hdone <;> cases hdone
    exact hcreated st hst

theorem Filed.emptied {types : Schema → Prop} {st : Store} (hf : st.Filed types) : st.emptied.Filed types :=
  fun e he => hf e (List.mem_filter.mp he).1

/-- The calls of the lifecycle leave every set with its type. -/
theorem Filed.perform {types : Schema → Prop} {st : Store} (hf : st.Filed types) (c : Call) :
    (perform c st).2.Filed types :=
  (manage_keeps_of (I := Filed types) (fun _ h => h) (fun _ h => h.emptied) c st hf).1

end DocStore.Store
